import Mathlib.Data.List.Nodup
import QtWebApp.Base.QString

/-!
# QtWebApp.TemplateEngine.TemplateLoader

Loading templates for a list of locales.

`getTemplate` goes through the locales twice, once as they are and once for the language alone,
and looks at last for the template without a locale. Names that were tried in vain are not tried
again. The model notes the calls of `tryFile` beside the set of these names.

`getTemplate_first` says that this is a search in the plain list of all names: what was tried in
vain had no document, so leaving it out makes no difference.

A template that is empty counts as one that is not there. That is so in the source, which asks the
text whether it is empty.
-/

namespace QtWebApp

namespace QString

/-- `QChar::isSpace`. -/
def isSpace (c : UInt16) : Bool :=
  c == 0x20 || (9 ≤ c && c ≤ 13) || c == 0x85 || c == 0xA0 || c == 0x1680 ||
    (0x2000 ≤ c && c ≤ 0x200A) || c == 0x2028 || c == 0x2029 || c == 0x202F ||
      c == 0x205F || c == 0x3000

/-- `QString::trimmed`. -/
def trimmed (s : QString) : QString := (s.dropWhile isSpace).rdropWhile isSpace

/-- What is left when everything from the first of the given characters on is replaced by
nothing. -/
def before (stops : List UInt16) (s : QString) : QString := s.takeWhile (· ∉ stops)

end QString

/-- `Template`: its text and the name of its source. -/
structure Template where
  document : QString
  sourceName : QString
  deriving DecidableEq, Repr

/-- `TemplateLoader`, with the files that can be read and what the codec makes of their contents. -/
structure TemplateLoader where
  templatePath : QString
  fileNameSuffix : QString
  files : QString → Option QString

namespace TemplateLoader

open QString

/-- The name of a template file. -/
def fileName (l : TemplateLoader) (localizedName : QString) : QString :=
  l.templatePath ++ ofAscii "/" ++ localizedName ++ l.fileNameSuffix

/-- `TemplateLoader::tryFile`: the empty text for a file that is not there or cannot be read. -/
def tryFile (l : TemplateLoader) (localizedName : QString) : QString :=
  (l.files (l.fileName localizedName)).getD []

/-- The name for a part of the locales as it stands: up to the semicolon, with underscores. -/
def exactName (templateName loc : QString) : QString :=
  let loc := before [59] loc
  let loc : QString := loc.map fun c => if c = 45 then 95 else c
  templateName ++ ofAscii "-" ++ trimmed loc

/-- The name for the language of a part of the locales. -/
def languageName (templateName loc : QString) : QString :=
  let loc := before [59, 95, 45] loc
  templateName ++ ofAscii "-" ++ trimmed loc

/-- The names tried in vain, and all calls of `tryFile`. -/
structure Tried where
  tried : List QString
  calls : List QString

/-- A loop over the locales: the template it returns, if it does. -/
def searchLocales (l : TemplateLoader) (localized : QString → QString) :
    List QString → Tried → Option Template × Tried
  | [], t => (none, t)
  | loc :: locs, t =>
      let localizedName := localized loc
      if localizedName ∉ t.tried then
        let document := l.tryFile localizedName
        let calls := t.calls ++ [localizedName]
        if document ≠ [] then (some ⟨document, localizedName⟩, ⟨t.tried, calls⟩)
        else searchLocales l localized locs ⟨t.tried ++ [localizedName], calls⟩
      else searchLocales l localized locs t

/-- The parts between the commas, without empty ones. -/
def localeParts (locales : QString) : List QString := (locales.splitOn 44).filter (· ≠ [])

/-- `TemplateLoader::getTemplate`, with the names given to `tryFile`. -/
def getTemplate (l : TemplateLoader) (templateName locales : QString) : Template × List QString :=
  let locs := localeParts locales
  match searchLocales l (exactName templateName) locs ⟨[], []⟩ with
  | (some result, t) => (result, t.calls)
  | (none, t) =>
      match searchLocales l (languageName templateName) locs t with
      | (some result, t) => (result, t.calls)
      | (none, t) =>
          let document := l.tryFile templateName
          let calls := t.calls ++ [templateName]
          -- without any document only a message is logged
          if document ≠ [] then (⟨document, templateName⟩, calls) else (⟨[], templateName⟩, calls)

/-! ### The search in a list of names

A loop over the locales, with the set of names that were tried in vain. -/

/-- The first of the names with a document. -/
def firstFound (l : TemplateLoader) (names : List QString) : Option QString :=
  names.find? fun name => l.tryFile name ≠ []

/-- What was tried so far: every name once, and in vain. -/
structure InVain (l : TemplateLoader) (t : Tried) : Prop where
  calls : t.calls = t.tried
  nodup : t.tried.Nodup
  empty : ∀ name ∈ t.tried, l.tryFile name = []

/-- The state after one more call. -/
def Tried.add (t : Tried) (name : QString) : Tried := ⟨t.tried ++ [name], t.calls ++ [name]⟩

theorem InVain.nodup_add {l : TemplateLoader} {t : Tried} (h : InVain l t) {name : QString}
    (hnew : name ∉ t.tried) : (t.calls ++ [name]).Nodup := by
  rw [h.calls]
  exact List.nodup_append.mpr ⟨h.nodup, List.nodup_singleton name, fun a ha b hb he =>
    hnew (List.mem_singleton.mp hb ▸ he ▸ ha)⟩

/-- One more name tried in vain. -/
theorem InVain.add {l : TemplateLoader} {t : Tried} (h : InVain l t) {name : QString}
    (hnew : name ∉ t.tried) (hdoc : l.tryFile name = []) : InVain l (t.add name) where
  calls := congrArg (· ++ [name]) h.calls
  nodup := by simpa only [Tried.add, h.calls] using h.nodup_add hnew
  empty := by
    intro name' hname
    rcases List.mem_append.mp hname with hold | hlast
    · exact h.empty name' hold
    · rw [List.mem_singleton.mp hlast, hdoc]

/-- What a loop over the locales comes to, the names being these. -/
structure Searched (l : TemplateLoader) (names : List QString) (t : Tried)
    (result : Option Template × Tried) : Prop where
  found : result.1 = (l.firstFound names).map fun name => ⟨l.tryFile name, name⟩
  nodup : result.2.calls.Nodup
  calls : ∀ name ∈ result.2.calls, name ∈ t.calls ∨ name ∈ names
  inVain : result.1 = none → InVain l result.2

/-- A loop over the locales finds the first name with a document, and tries no name again. -/
theorem searchLocales_searched {l : TemplateLoader} {localized : QString → QString}
    {locs : List QString} {t : Tried} (h : InVain l t) :
    Searched l (locs.map localized) t (searchLocales l localized locs t) := by
  induction locs generalizing t with
  | nil => exact ⟨rfl, h.calls ▸ h.nodup, fun name hname => .inl hname, fun _ => h⟩
  | cons loc locs ih =>
      rw [searchLocales, List.map_cons]
      generalize localized loc = name
      by_cases hold : name ∈ t.tried
      · -- a name that was tried has no document, so the search in the list passes over it, too
        have hrest := ih h
        rw [if_neg (not_not.mpr hold)]
        refine ⟨?_, hrest.nodup, fun name' hname => ?_, hrest.inVain⟩
        · rw [hrest.found]
          simp [firstFound, h.empty name hold]
        · exact (hrest.calls name' hname).imp id (List.mem_cons_of_mem _)
      · rw [if_pos hold]
        by_cases hdoc : l.tryFile name = []
        · have hrest := ih (h.add hold hdoc)
          dsimp only
          rw [if_neg (not_not.mpr hdoc)]
          refine ⟨?_, hrest.nodup, fun name' hname => ?_, hrest.inVain⟩
          · exact hrest.found.trans (by simp [firstFound, hdoc])
          · rcases hrest.calls name' hname with hcalled | hlater
            · rcases List.mem_append.mp hcalled with hbefore | hlast
              · exact .inl hbefore
              · exact .inr (List.mem_singleton.mp hlast ▸ List.mem_cons_self)
            · exact .inr (List.mem_cons_of_mem _ hlater)
        · dsimp only
          rw [if_pos hdoc]
          refine ⟨by simp [firstFound, hdoc], h.nodup_add hold, fun name' hname => ?_,
            fun hnone => absurd hnone (by simp)⟩
          rcases List.mem_append.mp hname with hbefore | hlast
          · exact .inl hbefore
          · exact .inr (List.mem_singleton.mp hlast ▸ List.mem_cons_self)

/-! ### The search order

The two loops and the last attempt are one search, since a name that is left out was tried
before. -/

/-- All names for a template, in the order of the search. -/
def names (templateName locales : QString) : List QString :=
  (localeParts locales).map (exactName templateName) ++
    (localeParts locales).map (languageName templateName) ++ [templateName]

/-- A name with a locale is not the name of the template. -/
theorem localized_ne (templateName x : QString) :
    templateName ++ ofAscii "-" ++ x ≠ templateName := by
  intro h
  have hlen := congrArg List.length h
  simp [ofAscii] at hlen

/-- Different names are looked up in different files. -/
theorem fileName_injective (l : TemplateLoader) : Function.Injective l.fileName := by
  intro a b h
  exact List.append_cancel_left (List.append_cancel_right h)

theorem firstFound_append (l : TemplateLoader) (xs ys : List QString) :
    l.firstFound (xs ++ ys) = (l.firstFound xs).or (l.firstFound ys) := List.find?_append

/-- A search that has found something. -/
theorem Searched.done {l : TemplateLoader} {xs : List QString} {t t₁ : Tried} {result : Template}
    (h : Searched l xs t (some result, t₁)) (ys : List QString) :
    Searched l (xs ++ ys) t (some result, t₁) where
  found := by
    have hfound := h.found
    dsimp only at hfound ⊢
    rw [firstFound_append]
    cases hfirst : l.firstFound xs with
    | none => rw [hfirst] at hfound; exact absurd hfound (by simp)
    | some name => rw [hfound, hfirst, Option.some_or]
  nodup := h.nodup
  calls := fun name hname => (h.calls name hname).imp id (List.mem_append_left _)
  inVain := fun hnone => absurd hnone (by simp)

/-- A search that has failed goes on with further names. -/
theorem Searched.next {l : TemplateLoader} {xs ys : List QString} {t t₁ : Tried}
    {result : Option Template × Tried} (h : Searched l xs t (none, t₁))
    (h' : Searched l ys t₁ result) :
    Searched l (xs ++ ys) t result where
  found := by
    rw [firstFound_append, Option.map_eq_none_iff.mp h.found.symm, Option.none_or]
    exact h'.found
  nodup := h'.nodup
  calls := by
    intro name hname
    rcases h'.calls name hname with hbefore | hmem
    · exact (h.calls name hbefore).imp id (List.mem_append_left _)
    · exact .inr (List.mem_append_right _ hmem)
  inVain := h'.inVain

/-- The last file that is tried. -/
theorem searched_last {l : TemplateLoader} {t : Tried} (h : InVain l t) {name : QString}
    (hnew : name ∉ t.tried) :
    Searched l [name] t
      (if l.tryFile name ≠ [] then some ⟨l.tryFile name, name⟩ else none, t.add name) where
  found := by by_cases hdoc : l.tryFile name = [] <;> simp [firstFound, hdoc]
  nodup := h.nodup_add hnew
  calls := fun name' hname => List.mem_append.mp hname
  inVain := fun hnone => h.add hnew (by simpa using hnone)

/-- `getTemplate` is one search in the list of all names. -/
theorem getTemplate_searched (l : TemplateLoader) (templateName locales : QString) :
    ∃ result, Searched l (names templateName locales) ⟨[], []⟩ result ∧
      l.getTemplate templateName locales = (result.1.getD ⟨[], templateName⟩, result.2.calls) := by
  have hstart : InVain l ⟨[], []⟩ := ⟨rfl, List.nodup_nil, fun _ h => absurd h List.not_mem_nil⟩
  have hexact : Searched l ((localeParts locales).map (exactName templateName)) ⟨[], []⟩
      (searchLocales l (exactName templateName) (localeParts locales) ⟨[], []⟩) :=
    searchLocales_searched hstart
  unfold getTemplate names
  dsimp only
  rw [List.append_assoc]
  generalize searchLocales l (exactName templateName) (localeParts locales) ⟨[], []⟩ =
    r₁ at hexact ⊢
  obtain ⟨_ | result, t₁⟩ := r₁
  · have hlanguage : Searched l ((localeParts locales).map (languageName templateName)) t₁
        (searchLocales l (languageName templateName) (localeParts locales) t₁) :=
      searchLocales_searched (hexact.inVain rfl)
    dsimp only
    generalize searchLocales l (languageName templateName) (localeParts locales) t₁ =
      r₂ at hlanguage ⊢
    obtain ⟨_ | result, t₂⟩ := r₂
    · have hvain := hlanguage.inVain rfl
      -- the names with a locale are longer than that of the template
      have hnew : templateName ∉ t₂.tried := by
        rw [← hvain.calls]
        intro hmem
        rcases (hexact.next hlanguage).calls _ hmem with hbefore | hmem
        · exact absurd hbefore List.not_mem_nil
        · rcases List.mem_append.mp hmem with hmem | hmem
          · obtain ⟨loc, -, he⟩ := List.mem_map.mp hmem
            exact localized_ne _ _ he
          · obtain ⟨loc, -, he⟩ := List.mem_map.mp hmem
            exact localized_ne _ _ he
      refine ⟨_, hexact.next (hlanguage.next (searched_last hvain hnew)), ?_⟩
      by_cases hdoc : l.tryFile templateName = [] <;> simp [hdoc, Tried.add]
    · exact ⟨_, hexact.next (hlanguage.done _), rfl⟩
  · exact ⟨_, hexact.done _, rfl⟩

/-- The order of the class documentation, for a template of which there is no file at all. -/
example : (getTemplate ⟨[], [], fun _ => none⟩ (ofAscii "index") (ofAscii "de_DE, de, en-US")).2 =
    [ofAscii "index-de_DE", ofAscii "index-de", ofAscii "index-en_US", ofAscii "index-en",
      ofAscii "index"] := by decide

end TemplateLoader

end QtWebApp
