import QtWebApp.WebSockets.Handshake
import QtWebApp.WebSockets.WebSocketConnection

/-!
# QtWebApp.WebSockets.ClientSocket

A client from its request on: first it waits for the response, then it is one end of a connection.

`processData` does both, in one loop: what stands behind the response is already for the data
processor. So the state of a client is either an `Opening` or a `QWebSocket`, and `Reached` says
that a client that is connected is a `QWebSocket` like any other, to which everything behind the
response has arrived, in some pieces. With that, what is known about a connection holds from the
first byte behind the response (`received_from_start`).

In `Reached` the pieces in which the rest has arrived are not those in which it came from the
network, because the first of them is what the handshake has left over. That does not matter: frames
may be cut anywhere.
-/

namespace QtWebApp

open Bytes
open QWebSocket (Event)

/-- A `QWebSocket` of a client, from its request on. -/
inductive ClientSocket
  | opening (o : Opening)
  | connected (s : QWebSocket)

namespace ClientSocket

section Client

/- The application, and what its slot does that is connected to `connected()`. -/
variable (app : Application) (whenConnected : List Call)

/-- The handshake has succeeded: the rest of the data is in the buffer when `connected()` is
emitted, and the loop of `processData` goes on with it. -/
def handOver (o : Opening) : QWebSocket :=
  (Event.arrive o.readBuffer :: whenConnected.map Event.call ++ [Event.processData]).foldl
    (QWebSocket.occur app) (.connected true)

/-- An event happens. The application does not use a WebSocket that is not connected yet. -/
def occur : ClientSocket → Event → ClientSocket
  | .opening o, .arrive data =>
      let o := o.arrive data
      if o.connected then .connected (handOver app whenConnected o) else .opening o
  | .opening o, _ => .opening o
  | .connected s, e => .connected (s.occur app e)

/-- A client that has sent its request. -/
def run (key : Bytes) (events : List Event) : ClientSocket :=
  events.foldl (occur app whenConnected) (.opening (.requested key))

end Client

/-- The signals of the data processor. -/
def received : ClientSocket → List ProcessorSignal
  | .opening _ => []
  | .connected s => s.received

/-- A client that is connected has read everything that has arrived, and has not closed. -/
inductive UpToDate : ClientSocket → Prop
  | opening (o : Opening) : UpToDate (.opening o)
  | connected {s : QWebSocket} (hopen : s.isOpen = true)
      (hread : s.reading = none → s.readBuffer = []) :
      UpToDate (.connected s)

/-- In the terms of the theorems about a connection. -/
theorem upToDate_connected {s : QWebSocket} :
    s.isOpen = true ∧ (s.reading = none → s.readBuffer = []) ↔ UpToDate (.connected s) := by
  constructor
  · exact fun h => .connected h.1 h.2
  · intro h
    cases h with
    | connected hopen hread => exact ⟨hopen, hread⟩

instance : (c : ClientSocket) → Decidable c.UpToDate
  | .opening o => .isTrue (.opening o)
  | .connected _ => decidable_of_iff _ upToDate_connected

/-- What has become of a client to which `input` has arrived. -/
inductive Reached (app : Application) (key input : Bytes) : ClientSocket → Prop
  | opening {pieces : List Bytes} (hinput : pieces.flatten = input)
      (hwaiting : ¬ (pieces.foldl Opening.arrive (.requested key)).connected = true) :
      Reached app key input (.opening (pieces.foldl Opening.arrive (.requested key)))
  | connected {pieces : List Bytes} {rest : Bytes} {events : List Event}
      (hconnected : (pieces.foldl Opening.arrive (.requested key)).connected = true)
      (hinput : pieces.flatten ++ rest = input)
      (hdata : events.flatMap Event.data =
        (pieces.foldl Opening.arrive (.requested key)).readBuffer ++ rest) :
      Reached app key input (.connected (events.foldl (QWebSocket.occur app) (.connected true)))

variable {app : Application} {key input : Bytes}

/-- The calls of the application bring no data. -/
theorem data_handOver (data : Bytes) (calls : List Call) :
    (Event.arrive data :: calls.map Event.call ++ [Event.processData]).flatMap Event.data =
      data := by
  have hcalls : (calls.map Event.call).flatMap Event.data = [] := by
    rw [List.flatMap_map]
    exact List.flatMap_eq_nil_iff.mpr fun _ _ => rfl
  rw [List.flatMap_append, List.flatMap_cons, hcalls]
  exact (List.append_nil _).trans (List.append_nil _)

/-- **A step of the client.** When the handshake ends, a WebSocket takes over. -/
theorem Reached.occur {c : ClientSocket} (h : Reached app key input c)
    (whenConnected : List Call) (e : Event) :
    Reached app key (input ++ e.data) (c.occur app whenConnected e) := by
  cases h with
  | @opening pieces hinput hwaiting =>
      cases e with
      | arrive data =>
          have hflat : (pieces ++ [data]).flatten = input ++ data := by
            rw [List.flatten_append, hinput, List.flatten_singleton]
          have hstep : (pieces.foldl Opening.arrive (.requested key)).arrive data =
              (pieces ++ [data]).foldl Opening.arrive (.requested key) :=
                (List.foldl_concat ..).symm
          unfold ClientSocket.occur
          dsimp only
          rw [hstep]
          split
          · next hconnected =>
              have hnothing : (pieces ++ [data]).flatten ++ [] = input ++ data := by
                rw [List.append_nil, hflat]
              refine .connected hconnected hnothing ?_
              rw [data_handOver, List.append_nil]
          · next hwaiting => exact .opening hflat hwaiting
      | _ => exact .opening (hinput.trans (List.append_nil _).symm) hwaiting
  | @connected pieces rest events hconnected hinput hdata =>
      have hstep : (events.foldl (QWebSocket.occur app) (.connected true)).occur app e =
          (events ++ [e]).foldl (QWebSocket.occur app) (.connected true) :=
            (List.foldl_concat ..).symm
      unfold ClientSocket.occur
      dsimp only
      rw [hstep]
      have hmore : pieces.flatten ++ (rest ++ e.data) = input ++ e.data := by
        rw [← List.append_assoc, hinput]
      refine .connected hconnected hmore ?_
      rw [List.flatMap_append, hdata, List.flatMap_singleton, List.append_assoc]

/-- A run of the client. -/
theorem reached_run (whenConnected : List Call) (events : List Event) :
    Reached app key (events.flatMap Event.data) (run app whenConnected key events) := by
  induction events using List.reverseRecOn with
  | nil =>
      have hwaiting : ¬ (([] : List Bytes).foldl Opening.arrive (.requested key)).connected =
          true :=
        Bool.false_ne_true
      exact .opening List.flatten_nil hwaiting
  | append_singleton events e ih =>
      have hstep := ih.occur whenConnected e
      rw [List.flatMap_append, List.flatMap_singleton]
      unfold run at hstep ⊢
      rw [List.foldl_concat]
      exact hstep

end ClientSocket

/-! ### From the first byte behind the response

The connection as a whole: the handshake on both sides, and then the messages of the server. -/

/-- A client that is connected leaves what arrives for the data processor. -/
theorem Opening.arrive_connected {o : Opening} (h : o.connected = true) (data : Bytes) :
    (o.arrive data).readBuffer = o.readBuffer ++ data := by
  have hidle : ¬ (o.holding (o.readBuffer ++ data)).Reads := fun hreads => hreads.1 h
  rw [Opening.arrive_eq, Opening.settle_idle hidle]
  rfl

namespace ClientRequest

open ClientSocket

/-- **From the request to the messages.** The response of the server and what its WebSocket writes
after it arrive at the client, in whatever pieces: what the client has received completely is the
first part of what the server has sent, and all of it if everything has arrived and the client has
read it. -/
theorem received_from_start (platform : Platform) {serverName : Bytes} {c : ClientRequest}
    (hascii : ∀ b ∈ c.text, b < 128) (hname : PlainText serverName) (horigin : PlainText c.origin)
    (app serverApp : Application) (whenConnected : List Call) (events serverEvents : List Event)
    {server : QWebSocket}
    (hserver : server = serverEvents.foldl (QWebSocket.occur serverApp) (.connected false))
    (hinput : events.flatMap Event.data <+: (upgradeFrom platform serverName c.text).2.1 ++
      server.written) :
    (ClientSocket.run app whenConnected c.key events).received.filter ProcessorSignal.isComplete <+:
        server.sent.map Transmission.announcement ∧
      (events.flatMap Event.data = (upgradeFrom platform serverName c.text).2.1 ++ server.written →
        (ClientSocket.run app whenConnected c.key events).UpToDate →
        (ClientSocket.run app whenConnected c.key events).received.filter
          ProcessorSignal.isComplete =
          server.sent.map Transmission.announcement) := by
  rw [response_eq platform hascii (.inl hname) horigin] at hinput ⊢
  obtain ⟨missing, hmissing⟩ := hinput
  have hreached : Reached app c.key (events.flatMap Event.data)
      (ClientSocket.run app whenConnected c.key events) := reached_run whenConnected events
  generalize ClientSocket.run app whenConnected c.key events = client at hreached ⊢
  cases hreached with
  | opening hpieces hwaiting =>
      refine ⟨List.nil_prefix, fun hall _ => absurd ?_ hwaiting⟩
      exact (arrive_own_answer (.inl hname) horigin (hpieces.trans hall)).1
  | @connected pieces rest events' hconnected hpieces hdata =>
      -- what the client still has to get would be left in the buffer
      have hall : (pieces ++ [rest ++ missing]).flatten =
          head (c.answer platform serverName) ++ server.written := by
        rw [List.flatten_append, List.flatten_singleton, ← List.append_assoc, hpieces, hmissing]
      obtain ⟨-, -, hbuffer⟩ := arrive_own_answer (.inl hname) horigin hall
      rw [List.foldl_concat, Opening.arrive_connected hconnected, ← List.append_assoc,
        ← hdata] at hbuffer
      obtain ⟨hsane, hsettled⟩ := QWebSocket.foldl_occur_sane app.allows_true true events'
        fun _ _ _ _ _ => trivial
      obtain ⟨hpeer, -⟩ := QWebSocket.foldl_occur_sane serverApp.allows_true false serverEvents
        fun _ _ _ _ _ => trivial
      rw [← hserver] at hpeer
      obtain ⟨fs, pending, hi⟩ := hsane.incoming
      obtain ⟨sent, ws, tail, hd⟩ := WebSocketConnection.exists_direction hpeer.outgoing hi hbuffer
      refine ⟨hd.received_prefix, fun heverything hupToDate => ?_⟩
      obtain ⟨hopen, hread⟩ := upToDate_connected.mpr hupToDate
      have hnothing : missing = [] := by
        rw [heverything] at hmissing
        exact List.append_right_eq_self.mp hmissing
      subst hnothing
      exact hd.received_all hopen hsettled hread

/-- Everything arrives, cut in two. -/
def cutAt (n : Nat) (b : Bytes) : List Event := [.arrive (b.take n), .arrive (b.drop n)]

theorem data_cutAt (n : Nat) (b : Bytes) : (cutAt n b).flatMap Event.data = b := by
  rw [cutAt, List.flatMap_cons, List.flatMap_singleton]
  exact List.take_append_drop n b

/-- A server that sends a text at once. -/
def greeter : QWebSocket :=
  [Event.call (.sendTextMessage (QString.ofAscii "hello"))].foldl
    (QWebSocket.occur (.silent UInt32.ofNat)) (.connected false)

/-- What arrives at its client. -/
def greeted : Bytes :=
  (upgradeFrom latin1Platform (ascii "server") chatRequest.text).2.1 ++ greeter.written

/-- The cut is in the middle of the response; the client sends a ping as soon as it is connected. -/
theorem received_from_start_chat :
    (ClientSocket.run (.silent UInt32.ofNat) [.ping []] chatRequest.key
        (cutAt 50 greeted)).received.filter ProcessorSignal.isComplete =
      greeter.sent.map Transmission.announcement := by
  have hname : PlainText (ascii "server") := by decide
  have hinput : (cutAt 50 greeted).flatMap Event.data =
      (upgradeFrom latin1Platform (ascii "server") chatRequest.text).2.1 ++ greeter.written :=
    data_cutAt 50 greeted
  have hread : (ClientSocket.run (.silent UInt32.ofNat) [.ping []] chatRequest.key
      (cutAt 50 greeted)).UpToDate := by decide +kernel
  obtain ⟨-, hall⟩ := received_from_start latin1Platform chatRequest_ascii hname (by decide)
    (.silent UInt32.ofNat) (.silent UInt32.ofNat) [.ping []] (cutAt 50 greeted)
    [.call (.sendTextMessage (QString.ofAscii "hello"))] (rfl : greeter = _)
    ⟨[], (List.append_nil _).trans hinput⟩
  exact hall hinput hread

end ClientRequest

end QtWebApp
