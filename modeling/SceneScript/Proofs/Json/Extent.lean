import SceneScript.Proofs.Json.Place
import SceneScript.Proofs.Text.Block

namespace SceneScript.Json

open Text

def Line.Solid (l : Line) : Prop :=
  ∃ c s, l.body = c :: s ∧ isBlank c = false

theorem Line.Solid.indentation? {l : Line} (h : l.Solid) :
    indentation? l.text = some (2 * l.depth) := by
  obtain ⟨c, s, hl, hc⟩ := h
  rw [Line.text, hl, indentation?_append hc]

theorem Line.Solid.closes_eq {l : Line} (h : l.Solid) (depth : Nat) :
    closes (2 * depth) l.text = (l.body.contains '\x7d' && decide (l.depth ≤ depth)) := by
  have hb : '\x7d' ∈ l.text ↔ '\x7d' ∈ l.body := by simp [Line.text]
  have hd : 2 * l.depth ≤ 2 * depth ↔ l.depth ≤ depth := by omega
  simp [closes, h.indentation?, hb, hd]

theorem Core.starts {core : List Char} (h : Core core) :
    ∃ c s, core = c :: s ∧ isBlank c = false := by
  cases h with
  | atom v =>
    cases v with
    | bool b => cases b <;> exact ⟨_, _, rfl, by decide⟩
    | number n =>
      obtain ⟨c, s, hc⟩ := List.exists_cons_of_ne_nil n.text_ne_nil
      exact ⟨c, s, hc, isBlank_of_isNumeral (n.isNumeral_of_mem_text (by simp [hc]))⟩
    | _ => exact ⟨_, _, rfl, by decide⟩
  | _ => exact ⟨_, _, rfl, by decide⟩

theorem solid_of_lead (depth : Nat) {front core : List Char} (back : List Char) (hc : Core core)
    (hf : front = [] ∨ ∃ key, front = label key) :
    Line.Solid ⟨depth, front ++ core ++ back⟩ := by
  rcases hf with rfl | ⟨key, rfl⟩
  · obtain ⟨c, s, rfl, hb⟩ := hc.starts
    exact ⟨c, s ++ back, rfl, hb⟩
  · exact ⟨'"', _, rfl, by decide⟩

theorem Formed.solid {depth : Nat} {before after : List Char} {l : Line}
    (h : Formed depth before after l) (hb : before = [] ∨ ∃ key, before = label key) :
    l.Solid := by
  obtain ⟨-, front, core, back, hbody, hc, hf, -⟩ := h
  have hfront : front = [] ∨ ∃ key, front = label key := by
    rcases hf with rfl | rfl | hf
    · exact hb
    · exact .inl rfl
    · exact .inr hf
  have hs := solid_of_lead l.depth back hc hfront
  rwa [← hbody] at hs

theorem Formed.not_closes {depth deeper : Nat} {before after : List Char} {l : Line}
    (h : Formed deeper before after l) (hb : before = [] ∨ ∃ key, before = label key)
    (hd : depth < deeper) : closes (2 * depth) l.text = false := by
  have hl : ¬ l.depth ≤ depth := by
    have hle := h.1
    omega
  rw [(h.solid hb).closes_eq, decide_eq_false hl, Bool.and_false]

theorem brace_not_mem_label {key : String} (h : '\x7d' ∉ key.toList) : '\x7d' ∉ label key := by
  simp [label, quote_eq, brace_mem_escaped, h]

theorem closes_string {depth : Nat} {key s : String} {after : List Char}
    (hk : '\x7d' ∉ key.toList) (ha : after = [] ∨ after = [',']) :
    closes (2 * depth) (Line.text ⟨depth, label key ++ quote s.toList ++ after⟩) =
      s.toList.contains '\x7d' := by
  have hs : Line.Solid ⟨depth, label key ++ quote s.toList ++ after⟩ :=
    solid_of_lead depth after (.atom (.string s)) (.inr ⟨key, rfl⟩)
  have hafter : '\x7d' ∉ after := by rcases ha with rfl | rfl <;> decide
  rw [hs.closes_eq, Bool.eq_iff_iff]
  simp [brace_not_mem_label hk, quote_eq, brace_mem_escaped, hafter]

theorem closes_array {depth : Nat} {key : String} {after : List Char}
    (hk : '\x7d' ∉ key.toList) (ha : after = [] ∨ after = [',']) (items : List Json) :
    ∀ l ∈ linesAt depth (label key) after (array items), closes (2 * depth) l.text = false := by
  have hlabel := brace_not_mem_label hk
  have hafter : '\x7d' ∉ after := by rcases ha with rfl | rfl <;> decide
  intro l hl
  have hsolid := (formed_linesAt depth (label key) after (array items) l hl).solid
    (.inr ⟨key, rfl⟩)
  cases items with
  | nil =>
    simp only [linesAt, List.mem_singleton] at hl
    subst hl
    rw [hsolid.closes_eq]
    simp [atom, hlabel, hafter]
  | cons item items =>
    simp only [linesAt, List.mem_cons, List.mem_append, List.not_mem_nil, or_false] at hl
    rcases hl with (rfl | hl) | rfl
    · rw [hsolid.closes_eq]
      simp [hlabel]
    · exact (formed_itemLines (depth + 1) (item :: items) l hl).not_closes (.inl rfl)
        (Nat.lt_succ_self depth)
    · rw [hsolid.closes_eq]
      simp [hafter]

section Object

variable {path : List Nat} {v : Json} {member : String × Json} {members : List (String × Json)}
  {k : Nat}

theorem lines_object (h : place? path v = some (k, object (member :: members))) :
    ∃ above before after below, above.length = k ∧ Joined before after ∧
      lines v.pretty = above ++ Line.text ⟨path.length, before ++ ['\x7b']⟩ ::
        ((memberLines (path.length + 1) (member :: members)).map Line.text ++
          Line.text ⟨path.length, '\x7d' :: after⟩ :: below) := by
  obtain ⟨above, before, after, below, hlines, hlength, hj⟩ := linesAt_place 0 joined_nil h
  refine ⟨above.map Line.text, before, after, below.map Line.text, ?_, hj, ?_⟩
  · rw [List.length_map, hlength]
  · rw [lines_pretty, prettyLines, hlines, Nat.zero_add, linesAt]
    simp

theorem endLine_braces (h : place? path v = some (k, object (member :: members))) :
    endLine v.pretty (k + 1) = k + height (object (member :: members)) := by
  obtain ⟨above, before, after, below, rfl, hj, hlines⟩ := lines_object h
  have hopening : indentation? (Line.text ⟨path.length, before ++ ['\x7b']⟩) =
      some (2 * path.length) := by
    have hs := solid_of_lead path.length [] .openObject hj.1
    rw [List.append_nil] at hs
    exact hs.indentation?
  have hclosing : closes (2 * path.length) (Line.text ⟨path.length, '\x7d' :: after⟩) := by
    have hs : Line.Solid ⟨path.length, '\x7d' :: after⟩ := ⟨'\x7d', after, rfl, by decide⟩
    rw [hs.closes_eq]
    simp
  have hmiddle : ∀ l ∈ (memberLines (path.length + 1) (member :: members)).map Line.text,
      closes (2 * path.length) l = false := by
    intro l hl
    obtain ⟨line, hline, rfl⟩ := List.mem_map.mp hl
    exact (formed_memberLines _ _ line hline).not_closes (.inl rfl) (Nat.lt_succ_self _)
  have hheight : height (object (member :: members)) =
      (memberLines (path.length + 1) (member :: members)).length + 2 := by
    rw [← linesAt_length path.length [] [], linesAt]
    simp
  rw [endLine_of_lines _ hlines hopening hmiddle hclosing, List.length_map, hheight]
  omega

/-- The block that starts on the line of an object's opening brace ends on that of its closing
one. -/
theorem endLine_object (hm : members ≠ []) (h : place? path v = some (k, object members)) :
    ∃ first last before after, span? path v = some (first, last) ∧ Joined before after ∧
      ((lines v.pretty).drop (first - 1)).take (last - (first - 1)) =
        (linesAt path.length before after (object members)).map Line.text ∧
      (lines v.pretty)[first - 1]? = some (indent path.length ++ before ++ ['\x7b']) ∧
      (lines v.pretty)[last - 1]? = some (indent path.length ++ '\x7d' :: after) ∧
      endLine v.pretty first = last := by
  obtain ⟨member, members, rfl⟩ := List.exists_cons_of_ne_nil hm
  obtain ⟨first, last, before, after, hspan, hj, hlines, hfirst, hlast⟩ := lines_span?_object h
  refine ⟨first, last, before, after, hspan, hj, hlines, hfirst, hlast, ?_⟩
  rw [span?, h, Option.map_some, Option.some.injEq, Prod.mk.injEq] at hspan
  obtain ⟨rfl, rfl⟩ := hspan
  exact endLine_braces h

def bracedValue : Json :=
  object [("\x7d", array [.string "\x7d", object [("\"\x7b", .string "\n  \x7d,"), ("", .nat 1)]]),
    ("z", object [])]

theorem endLine_object_bracedValue :
    span? [0, 1] bracedValue = some (4, 7) ∧ endLine bracedValue.pretty 4 = 7 := by
  have hplace : place? [0, 1] bracedValue =
      some (3, object [("\"\x7b", .string "\n  \x7d,"), ("", .nat 1)]) := rfl
  obtain ⟨first, last, -, -, hspan, -, -, -, -, hend⟩ := endLine_object (by simp) hplace
  have hlines : span? [0, 1] bracedValue = some (4, 7) := by decide +kernel
  obtain ⟨rfl, rfl⟩ := Prod.mk.inj (Option.some.inj (hspan.symm.trans hlines))
  exact ⟨hlines, hend⟩

end Object

end SceneScript.Json
