import SceneScript.Preferences.File
import SceneScript.Proofs.Files.ReadBack
import SceneScript.Proofs.Yaml.Entry

namespace SceneScript.Preferences

open Yaml

def flagText (b : Bool) : List Char :=
  (if b then "true" else "false").toList

def versionText (version : Option String) : List Char :=
  version.elim [] fun v => "parser-version".toList ++ ':' :: ' ' :: printed v.toList

theorem render_eq (p : Preferences) :
    p.render = "theme".toList ++ ':' :: ' ' :: (p.theme.name.toList ++ '\n' ::
      ("location".toList ++ ':' :: ' ' :: (flagText p.location ++ '\n' ::
        versionText p.parserVersion))) := by
  have htheme : "theme: ".toList = "theme".toList ++ [':', ' '] := by decide
  have hlocation : "\nlocation: ".toList = '\n' :: ("location".toList ++ [':', ' ']) := by decide
  have hversion : "parser-version: ".toList = "parser-version".toList ++ [':', ' '] := by decide
  unfold render versionText flagText
  rw [htheme, hlocation, hversion]
  generalize "theme".toList = theme
  generalize "location".toList = location
  generalize "parser-version".toList = version
  simp only [List.append_assoc, List.cons_append, List.nil_append]

theorem isKey_theme : IsKey "theme".toList :=
  show IsKey ['t', 'h', 'e', 'm', 'e'] from isKey_of_all (by decide) (by decide)

theorem isKey_location : IsKey "location".toList :=
  show IsKey ['l', 'o', 'c', 'a', 't', 'i', 'o', 'n'] from isKey_of_all (by decide) (by decide)

theorem isKey_version : IsKey "parser-version".toList :=
  show IsKey ['p', 'a', 'r', 's', 'e', 'r', '-', 'v', 'e', 'r', 's', 'i', 'o', 'n'] from
    isKey_of_all (by decide) (by decide)

def plainTokens (p : Preferences) : List Token :=
  [.blockMapping, .key, .scalar .plain "theme".toList, .value, .scalar .plain p.theme.name.toList,
    .key, .scalar .plain "location".toList, .value, .scalar .plain (flagText p.location)]

def versionTokens (version : Option String) : List Token :=
  version.elim [] fun v => [.key, .scalar .plain "parser-version".toList, .value,
    .scalar (styleOf v.toList) v.toList]

theorem run_render (p : Preferences) (fuel : Nat) :
    Lexer.run (fuel + 10) (Lexer.start p.render) =
      some (plainTokens p ++ versionTokens p.parserVersion ++ [.blockEnd]) := by
  have hstart : Lexer.start p.render = Lexer.atEntry true [] 0 p.render := by
    rw [render_eq]
    rfl
  have htheme : allowsPlain p.theme.name.toList := by
    cases p.theme <;> decide
  have htheme_ne : p.theme.name.toList ≠ [] := by
    cases p.theme <;> decide
  have hflag : allowsPlain (flagText p.location) := by
    cases p.location <;> decide
  have hflag_ne : flagText p.location ≠ [] := by
    cases p.location <;> decide
  have hversion : StartsWord (versionText p.parserVersion) := by
    cases p.parserVersion with
    | none => simp [versionText, StartsWord]
    | some v => exact isKey_version.startsWord _
  rw [hstart, render_eq, Lexer.run_plainEntry isKey_theme (by decide) htheme htheme_ne
      (isKey_location.startsWord _),
    Lexer.run_plainEntry isKey_location (by decide) hflag hflag_ne hversion]
  cases p.parserVersion with
  | none => exact Lexer.run_end (.inl rfl) _ true (fuel + 3)
  | some v =>
    have hread := Lexer.run_lastEntry isKey_version (by decide) (printed_written v.toList) false
    exact hread _ 2 fuel

theorem isPrintable_render (p : Preferences) : ∀ c ∈ p.render, isPrintable c := by
  have hall {s : List Char} (h : s.all isPrintable) : ∀ c ∈ s, isPrintable c :=
    List.all_eq_true.mp h
  have htheme : ∀ c ∈ p.theme.name.toList, isPrintable c := by
    cases p.theme <;> exact hall (by decide)
  have hflag : ∀ c ∈ flagText p.location, isPrintable c := by
    cases p.location <;> exact hall (by decide)
  have hversion : ∀ c ∈ versionText p.parserVersion, isPrintable c := by
    cases p.parserVersion with
    | none => simp [versionText]
    | some v =>
      simp only [versionText, Option.elim, List.forall_mem_append, List.forall_mem_cons]
      exact ⟨hall (by decide), rfl, rfl, isPrintable_written (printed_written v.toList)⟩
  rw [render_eq]
  simp only [List.forall_mem_append, List.forall_mem_cons]
  exact ⟨hall (by decide), rfl, rfl, htheme, rfl, hall (by decide), rfl, rfl, hflag, rfl, hversion⟩

theorem tokens?_render (p : Preferences) :
    tokens? p.render = some (plainTokens p ++ versionTokens p.parserVersion ++ [.blockEnd]) := by
  have hall : p.render.all isReadable :=
    List.all_eq_true.mpr fun c hc => isReadable_of_isPrintable (isPrintable_render p c hc)
  have hlength : 9 ≤ p.render.length := by
    have htheme : "theme".toList.length = 5 := by decide
    have hlocation : "location".toList.length = 8 := by decide
    rw [render_eq]
    simp only [List.length_append, List.length_cons, htheme, hlocation]
    omega
  obtain ⟨fuel, hfuel⟩ := Nat.exists_eq_add_of_le' hlength
  rw [tokens?, if_pos hall]
  simp only [unifyBreaks_of_isPrintable (isPrintable_render p)]
  rw [hfuel]
  exact run_render p fuel

theorem versionOf?_written {v text : List Char} {style : Style} (h : Written v style text) :
    versionOf? (.scalar {} style v) = some (some (String.ofList v)) := by
  cases h with
  | plain hquotes _ =>
    simp only [needsQuotes, Bool.or_eq_false_iff] at hquotes
    simp [versionOf?, hquotes]
  | single _ _ => rfl
  | double => rfl
  | literal _ _ => rfl

def entryNode (key : List Char) (style : Style) (value : List Char) : Node × Node :=
  (.scalar {} .plain key, .scalar {} style value)

def settingsNode (p : Preferences) : Node :=
  .mapping {} (entryNode "theme".toList .plain p.theme.name.toList ::
    entryNode "location".toList .plain (flagText p.location) ::
    p.parserVersion.toList.map fun v =>
      entryNode "parser-version".toList (styleOf v.toList) v.toList)

theorem ofTokens?_render (p : Preferences) :
    Node.ofTokens? (plainTokens p ++ versionTokens p.parserVersion ++ [.blockEnd]) =
      some (some (settingsNode p)) := by
  obtain ⟨theme, location, version⟩ := p
  cases version with
  | none => rfl
  | some v => rfl

theorem referEntries_scalars {entries : List (Node × Node)}
    (h : ∀ e ∈ entries, ∃ key style value, e = entryNode key style value) :
    ({} : Anchors).referEntries entries =
      some (entries.map fun e => (.direct e.1, .direct e.2), {}) := by
  induction entries with
  | nil => rfl
  | cons e entries ih =>
    obtain ⟨key, style, value, rfl⟩ := h e List.mem_cons_self
    have hi := ih fun f hf => h f (List.mem_cons_of_mem _ hf)
    simp [Anchors.referEntries, Anchors.refer, Anchors.collect, Anchors.note, entryNode, hi]

theorem applyEntries_cons {s t : Settings} {key value : List Char} {style : Style}
    (h : s.apply key (.scalar {} style value) = some t) (entries : List (Node × Node)) :
    applyEntries {} s ((entryNode key style value :: entries).map
        fun e => (.direct e.1, .direct e.2)) =
      applyEntries {} t (entries.map fun e => (.direct e.1, .direct e.2)) := by
  simp [applyEntries, Anchors.target?, keyOf?, entryNode, h]

theorem apply_version (s : Settings) (hs : s.parserVersion = none) (v : String) :
    s.apply "parser-version".toList (.scalar {} (styleOf v.toList) v.toList) =
      some { s with parserVersion := some (some v) } := by
  have hversion := versionOf?_written (printed_written v.toList)
  rw [String.ofList_toList] at hversion
  simp [Settings.apply, hs, hversion]

theorem applyEntries_settings (p : Preferences) (entries : List (Node × Node)) :
    applyEntries {} {} ((entryNode "theme".toList .plain p.theme.name.toList ::
        entryNode "location".toList .plain (flagText p.location) :: entries).map
          fun e => (.direct e.1, .direct e.2)) =
      applyEntries {} ⟨some p.theme, some p.location, none⟩
        (entries.map fun e => (.direct e.1, .direct e.2)) := by
  have htheme : Settings.apply {} "theme".toList (.scalar {} .plain p.theme.name.toList) =
      some { theme := some p.theme } := by
    cases p.theme <;> rfl
  have hlocation : Settings.apply { theme := some p.theme } "location".toList
      (.scalar {} .plain (flagText p.location)) =
        some { theme := some p.theme, location := some p.location } := by
    cases p.location <;> rfl
  rw [applyEntries_cons htheme, applyEntries_cons hlocation]

theorem ofRoot?_mapping {entries : List (Node × Node)}
    (h : ∀ e ∈ entries, ∃ key style value, e = entryNode key style value) :
    ofRoot? (some (.mapping {} entries)) =
      (applyEntries {} {} (entries.map fun e => (.direct e.1, .direct e.2))).map ofSettings := by
  have hanchors : ({} : Anchors).note none (.mapping {} entries) = {} := rfl
  simp only [ofRoot?, hanchors, referEntries_scalars h, Option.bind_eq_bind, Option.bind_some,
    Option.map_eq_bind]
  rfl

theorem ofRoot?_settingsNode (p : Preferences) : ofRoot? (some (settingsNode p)) = some p := by
  rw [settingsNode, ofRoot?_mapping, applyEntries_settings]
  · obtain ⟨theme, location, version⟩ := p
    cases version with
    | none => rfl
    | some v =>
      rw [Option.toList_some, List.map_singleton, applyEntries_cons (apply_version _ rfl v)]
      rfl
  · intro e he
    simp only [List.mem_cons, List.mem_map] at he
    rcases he with rfl | rfl | ⟨v, -, rfl⟩
    · exact ⟨_, _, _, rfl⟩
    · exact ⟨_, _, _, rfl⟩
    · exact ⟨_, _, _, rfl⟩

theorem ofText?_render (p : Preferences) : ofText? p.render = some p := by
  have hblank : p.render.all Text.isBlank = false := by
    rw [render_eq]
    rfl
  rw [ofText?, hblank, Node.ofText?, tokens?_render, Option.bind_some, ofTokens?_render,
    Option.bind_some, ofRoot?_settingsNode]
  rfl

theorem save_cases (p : Preferences) (d : Directory) (path : String) :
    ((p.save d path).2 = .ok () ∧ load (p.save d path).1 path = .ok p) ∨
      ∃ e, (p.save d path).2 = .error (.file e) := by
  cases hsave : d.save path (String.ofList p.render) with
  | mk written result =>
    cases result with
    | error e => exact .inr ⟨e, by simp [save, hsave]⟩
    | ok =>
      refine .inl ⟨by simp [save, hsave], ?_⟩
      have hread : written.read path = .ok (String.ofList p.render) := Directory.read_save hsave
      simp [save, hsave, load, hread, ofText?_render]

/-- Saved preferences are loaded as they were, whatever the file held before: what it holds then is
their text alone, and no other preferences have the same text. -/
theorem load_saved (p : Preferences) {d saved : Directory} {path : String}
    (h : p.save d path = (saved, .ok ())) :
    load saved path = .ok p ∧ saved.read path = .ok (String.ofList p.render) ∧
      ∀ q : Preferences, q.render = p.render → q = p := by
  have hread : saved.read path = .ok (String.ofList p.render) := by
    unfold save at h
    split at h
    · rename_i written hsave
      obtain rfl : written = saved := (Prod.mk.inj h).1
      exact Directory.read_save hsave
    · simp at h
  refine ⟨?_, hread, fun q hq => ?_⟩
  · rcases p.save_cases d path with ⟨-, hload⟩ | ⟨e, herror⟩
    · rwa [h] at hload
    · simp [h] at herror
  · have htext := ofText?_render q
    rw [hq, ofText?_render p] at htext
    exact (Option.some.inj htext).symm

def nullVersion : Preferences :=
  ⟨.dark, true, some "null"⟩

def longVersion : Preferences :=
  ⟨.light, true, some "one: \"1\"\n two # 2\n\n"⟩

def garbled : Directory :=
  ⟨[], [(["c.yaml"], .file (.text "theme: [dark\n"))]⟩

theorem load_saved_garbled :
    load (nullVersion.save garbled "c.yaml").1 "c.yaml" = .ok nullVersion ∧
      load (longVersion.save garbled "c.yaml").1 "c.yaml" = .ok longVersion := by
  have hsave : ∀ p : Preferences, p.save garbled "c.yaml" =
      ((p.save garbled "c.yaml").1, .ok ()) := fun p => Prod.ext rfl rfl
  exact ⟨(load_saved nullVersion (hsave _)).1, (load_saved longVersion (hsave _)).1⟩

end SceneScript.Preferences
