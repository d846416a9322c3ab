import QtWebApp.Base.BigEndian
import QtWebApp.Base.Utf8

/-!
# QtWebApp.WebSockets.QWebSocketProtocol

The constants of the WebSocket protocol, and the masking of payloads.

The opcodes are an enumeration of all sixteen values of the four bits, so that the cast of a byte
that was read always is one of them, reserved or not. Close codes stay numbers, since any 16 bits
may arrive; `isCloseCodeValid` says which of them may be used.

Masking is an exclusive or with a key of four bytes that is repeated. So it undoes itself
(`mask_mask`), and the key 0, by which the source says that a frame is not masked, changes nothing
(`mask_zero`).
-/

namespace QtWebApp

namespace QWebSocketProtocol

/-- `OpCode`: the sixteen values of the opcode field. -/
inductive OpCode
  | continuation | text | binary
  | reserved3 | reserved4 | reserved5 | reserved6 | reserved7
  | close | ping | pong
  | reservedB | reservedC | reservedD | reservedE | reservedF
  deriving DecidableEq, Repr

/-- The value of an opcode. -/
def OpCode.toNat : OpCode → Nat
  | .continuation => 0x0
  | .text => 0x1
  | .binary => 0x2
  | .reserved3 => 0x3
  | .reserved4 => 0x4
  | .reserved5 => 0x5
  | .reserved6 => 0x6
  | .reserved7 => 0x7
  | .close => 0x8
  | .ping => 0x9
  | .pong => 0xA
  | .reservedB => 0xB
  | .reservedC => 0xC
  | .reservedD => 0xD
  | .reservedE => 0xE
  | .reservedF => 0xF

/-- The opcode with a value; the cast of the last four bits of a byte. -/
def OpCode.ofBits (n : Nat) : OpCode :=
  match n % 16 with
  | 0x0 => .continuation
  | 0x1 => .text
  | 0x2 => .binary
  | 0x3 => .reserved3
  | 0x4 => .reserved4
  | 0x5 => .reserved5
  | 0x6 => .reserved6
  | 0x7 => .reserved7
  | 0x8 => .close
  | 0x9 => .ping
  | 0xA => .pong
  | 0xB => .reservedB
  | 0xC => .reservedC
  | 0xD => .reservedD
  | 0xE => .reservedE
  | _ => .reservedF

/-- `isOpCodeReserved`. -/
def isOpCodeReserved (code : OpCode) : Bool :=
  (OpCode.binary.toNat < code.toNat && code.toNat < OpCode.close.toNat) ||
    OpCode.pong.toNat < code.toNat

/-- `CloseCode`. A received code may be any number of 16 bits. -/
abbrev CloseCode := Nat

abbrev closeCodeNormal : CloseCode := 1000
abbrev closeCodeGoingAway : CloseCode := 1001
abbrev closeCodeProtocolError : CloseCode := 1002
abbrev closeCodeReserved1004 : CloseCode := 1004
abbrev closeCodeMissingStatusCode : CloseCode := 1005
abbrev closeCodeAbnormalDisconnection : CloseCode := 1006
abbrev closeCodeWrongDatatype : CloseCode := 1007
abbrev closeCodeTooMuchData : CloseCode := 1009

/-- `isCloseCodeValid`. -/
def isCloseCodeValid (closeCode : CloseCode) : Bool :=
  999 < closeCode && closeCode < 5000 && closeCode != closeCodeReserved1004 &&
    closeCode != closeCodeMissingStatusCode && closeCode != closeCodeAbnormalDisconnection &&
    (3000 ≤ closeCode || closeCode < 1012)

/-- The four bytes of a masking key, the first one of which masks the first byte. -/
def maskBytes (maskingKey : UInt32) : Bytes := toBigEndian 4 maskingKey.toNat

/-- `mask`. -/
def mask (payload : Bytes) (maskingKey : UInt32) : Bytes :=
  payload.mapIdx fun i c => c ^^^ (maskBytes maskingKey).getD (i % 4) 0

/-- Masking keeps the length. -/
@[simp] theorem length_mask (payload : Bytes) (maskingKey : UInt32) :
    (mask payload maskingKey).length = payload.length := List.length_mapIdx

/-- Masking twice. -/
@[simp] theorem mask_mask (payload : Bytes) (maskingKey : UInt32) :
    mask (mask payload maskingKey) maskingKey = payload := by
  apply List.ext_getElem
  · rw [length_mask, length_mask]
  · intro i hi hi'
    simp only [mask, List.getElem_mapIdx]
    rw [UInt8.xor_assoc, UInt8.xor_self, UInt8.xor_zero]

@[simp] theorem mask_nil (maskingKey : UInt32) : mask [] maskingKey = [] := rfl

/-- A key that is zero changes nothing. -/
@[simp] theorem mask_zero (payload : Bytes) : mask payload 0 = payload := by
  have hbytes : ∀ i < 4, (maskBytes 0).getD i 0 = 0 := by decide
  apply List.ext_getElem
  · rw [length_mask]
  · intro i hi hi'
    simp only [mask, List.getElem_mapIdx]
    rw [hbytes (i % 4) (Nat.mod_lt i (by omega)), UInt8.xor_zero]

/-- The key that was written is read back. -/
theorem ofNat_maskBytes (maskingKey : UInt32) :
    UInt32.ofNat (fromBigEndian (maskBytes maskingKey)) = maskingKey := by
  have hlt := UInt32.toNat_lt maskingKey
  rw [maskBytes, fromBigEndian_toBigEndian, Nat.mod_eq_of_lt (by omega), UInt32.ofNat_toNat]

end QWebSocketProtocol

end QtWebApp
