import SceneScript.Proofs.Json.Quoted
import SceneScript.Proofs.Number.Characters
import SceneScript.Proofs.Text.Occurrence

namespace SceneScript.Json

open Text

def indent (depth : Nat) : List Char :=
  List.replicate (2 * depth) ' '

theorem Line.text_eq (l : Line) : l.text = indent l.depth ++ l.body := rfl

mutual

def laid (depth : Nat) : Json → List Char
  | array (item :: items) =>
      '[' :: laidItems (depth + 1) (item :: items) ++ '\n' :: indent depth ++ [']']
  | object (member :: members) =>
      '{' :: laidMembers (depth + 1) (member :: members) ++ '\n' :: indent depth ++ ['}']
  | v => v.atom

def laidItems (depth : Nat) : List Json → List Char
  | [] => []
  | item :: items =>
      '\n' :: indent depth ++ laid depth item ++ separator items ++ laidItems depth items

def laidMembers (depth : Nat) : List (String × Json) → List Char
  | [] => []
  | (key, value) :: members =>
      '\n' :: indent depth ++ label key ++ laid depth value ++ separator members
        ++ laidMembers depth members

end

def broken (ls : List Line) : List Char :=
  ls.flatMap fun l => '\n' :: l.text

@[simp]
theorem broken_append (ls ms : List Line) : broken (ls ++ ms) = broken ls ++ broken ms :=
  List.flatMap_append

@[simp]
theorem broken_cons (l : Line) (ls : List Line) :
    broken (l :: ls) = '\n' :: indent l.depth ++ l.body ++ broken ls := by
  simp [broken, Line.text_eq]

@[simp]
theorem broken_nil : broken [] = [] := rfl

theorem broken_eq {ls : List Line} (h : ls ≠ []) :
    broken ls = '\n' :: joinLines (ls.map Line.text) := by
  induction ls with
  | nil => exact absurd rfl h
  | cons l ls ih =>
    cases ls with
    | nil => simp [joinLines, Line.text_eq]
    | cons k ls =>
      rw [List.map_cons, joinLines_cons (by simp), broken_cons, ih (by simp)]
      simp [Line.text_eq]

mutual

theorem broken_linesAt (depth : Nat) (before after : List Char) : ∀ v : Json,
    broken (linesAt depth before after v)
      = '\n' :: indent depth ++ before ++ laid depth v ++ after
  | array (item :: items) => by
      have h := broken_itemLines (depth + 1) (item :: items)
      simp only [linesAt, laid, broken_append, broken_cons, broken_nil, h]
      simp
  | object (member :: members) => by
      have h := broken_memberLines (depth + 1) (member :: members)
      simp only [linesAt, laid, broken_append, broken_cons, broken_nil, h]
      simp
  | array [] | object [] | null | bool _ | number _ | string _ => by simp [linesAt, laid]

theorem broken_itemLines (depth : Nat) : ∀ items : List Json,
    broken (itemLines depth items) = laidItems depth items
  | [] => rfl
  | item :: items => by
      simp [itemLines, laidItems, broken_linesAt depth [] (separator items) item,
        broken_itemLines depth items]

theorem broken_memberLines (depth : Nat) : ∀ members : List (String × Json),
    broken (memberLines depth members) = laidMembers depth members
  | [] => rfl
  | (key, value) :: members => by
      simp [memberLines, laidMembers, broken_linesAt depth (label key) (separator members) value,
        broken_memberLines depth members]

end

theorem linesAt_ne_nil (depth : Nat) (before after : List Char) (v : Json) :
    linesAt depth before after v ≠ [] := by
  cases v with
  | array items => cases items <;> simp [linesAt]
  | object members => cases members <;> simp [linesAt]
  | _ => simp [linesAt]

theorem pretty_eq_laid (v : Json) : v.pretty = laid 0 v := by
  have h := broken_linesAt 0 [] [] v
  rw [broken_eq (linesAt_ne_nil 0 [] [] v)] at h
  simpa [indent, pretty, prettyLines, joinLines] using h

inductive Core : List Char → Prop
  | atom (v : Json) : Core v.atom
  | openArray : Core ['[']
  | openObject : Core ['{']
  | closeArray : Core [']']
  | closeObject : Core ['}']

/-- A line at a depth or deeper, with one of the texts of `fronts` or a label in front and one of
the texts of `backs` or a separator behind. -/
def Formed (depth : Nat) (before after : List Char) (l : Line) : Prop :=
  depth ≤ l.depth ∧ ∃ front core back, l.body = front ++ core ++ back ∧ Core core ∧
    (front = before ∨ front = [] ∨ ∃ key, front = label key) ∧
    (back = after ∨ back = [] ∨ back = [','])

theorem separator_cases {α : Type} (rest : List α) :
    separator rest = [] ∨ separator rest = [','] := by
  cases rest <;> simp [separator]

theorem Formed.loosen {depth deeper : Nat} {before after front back : List Char} {l : Line}
    (h : Formed deeper front back l) (hd : depth ≤ deeper)
    (hf : front = [] ∨ ∃ key, front = label key) (hb : back = [] ∨ back = [',']) :
    Formed depth before after l := by
  obtain ⟨hl, front', core, back', hbody, hc, hf', hb'⟩ := h
  refine ⟨Nat.le_trans hd hl, front', core, back', hbody, hc, ?_, ?_⟩
  · rcases hf' with rfl | hf'
    · exact .inr hf
    · exact .inr hf'
  · rcases hb' with rfl | hb'
    · exact .inr hb
    · exact .inr hb'

theorem Formed.outer {depth : Nat} {before after core : List Char} (h : Core core) :
    Formed depth before after ⟨depth, before ++ core ++ after⟩ :=
  ⟨Nat.le_refl _, before, core, after, rfl, h, .inl rfl, .inl rfl⟩

theorem Formed.opening {depth : Nat} {before after core : List Char} (h : Core core) :
    Formed depth before after ⟨depth, before ++ core⟩ :=
  ⟨Nat.le_refl _, before, core, [], by simp, h, .inl rfl, .inr (.inl rfl)⟩

theorem Formed.closing {depth : Nat} {before after core : List Char} (h : Core core) :
    Formed depth before after ⟨depth, core ++ after⟩ :=
  ⟨Nat.le_refl _, [], core, after, by simp, h, .inr (.inl rfl), .inl rfl⟩

mutual

theorem formed_linesAt (depth : Nat) (before after : List Char) : ∀ v : Json,
    ∀ l ∈ linesAt depth before after v, Formed depth before after l
  | array (item :: items), l, h => by
      simp only [linesAt, List.mem_cons, List.mem_append, List.not_mem_nil, or_false] at h
      rcases h with (rfl | h) | rfl
      · exact .opening .openArray
      · exact (formed_itemLines (depth + 1) (item :: items) l h).loosen
          (Nat.le_succ _) (.inl rfl) (.inl rfl)
      · exact .closing .closeArray
  | object (member :: members), l, h => by
      simp only [linesAt, List.mem_cons, List.mem_append, List.not_mem_nil, or_false] at h
      rcases h with (rfl | h) | rfl
      · exact .opening .openObject
      · exact (formed_memberLines (depth + 1) (member :: members) l h).loosen
          (Nat.le_succ _) (.inl rfl) (.inl rfl)
      · exact .closing .closeObject
  | array [], l, h | object [], l, h | null, l, h | bool _, l, h | number _, l, h
  | string _, l, h => by
      rw [linesAt, List.mem_singleton] at h
      · exact h ▸ .outer (.atom _)
      all_goals simp

theorem formed_itemLines (depth : Nat) : ∀ items : List Json,
    ∀ l ∈ itemLines depth items, Formed depth [] [] l
  | [], l, h => by simp [itemLines] at h
  | item :: items, l, h => by
      rcases List.mem_append.mp h with h | h
      · exact (formed_linesAt depth [] (separator items) item l h).loosen
          (Nat.le_refl _) (.inl rfl) (separator_cases items)
      · exact formed_itemLines depth items l h

theorem formed_memberLines (depth : Nat) : ∀ members : List (String × Json),
    ∀ l ∈ memberLines depth members, Formed depth [] [] l
  | [], l, h => by simp [memberLines] at h
  | (key, value) :: members, l, h => by
      rcases List.mem_append.mp h with h | h
      · exact (formed_linesAt depth (label key) (separator members) value l h).loosen
          (Nat.le_refl _) (.inr ⟨key, rfl⟩) (separator_cases members)
      · exact formed_memberLines depth members l h

end

theorem Core.newline_not_mem {core : List Char} (h : Core core) : '\n' ∉ core := by
  cases h with
  | atom v =>
    cases v with
    | bool b => cases b <;> decide
    | number n =>
      intro hm
      exact absurd (n.isNumeral_of_mem_text hm) (by decide)
    | string s =>
      have hs := newline_not_mem_escaped s.toList
      simp [Json.atom, quote_eq, hs]
    | _ => simp [Json.atom]
  | _ => decide

theorem newline_not_mem_label (key : String) : '\n' ∉ label key := by
  simp [label, quote_eq, newline_not_mem_escaped]

theorem Formed.newline_not_mem {depth : Nat} {before after : List Char} {l : Line}
    (h : Formed depth before after l) (hb : '\n' ∉ before) (ha : '\n' ∉ after) :
    '\n' ∉ l.text := by
  obtain ⟨-, front, core, back, hl, hc, hf, hk⟩ := h
  have hfront : '\n' ∉ front := by
    obtain rfl | rfl | ⟨key, rfl⟩ := hf
    · exact hb
    · simp
    · exact newline_not_mem_label key
  have hback : '\n' ∉ back := by
    obtain rfl | rfl | rfl := hk
    · exact ha
    · simp
    · decide
  simp [Line.text_eq, indent, hl, hfront, hback, hc.newline_not_mem]

theorem newline_not_mem_prettyLines (v : Json) : ∀ l ∈ v.prettyLines.map Line.text, '\n' ∉ l := by
  intro l hl
  obtain ⟨line, hline, rfl⟩ := List.mem_map.mp hl
  exact (formed_linesAt 0 [] [] v line hline).newline_not_mem (by simp) (by simp)

theorem lines_pretty (v : Json) : lines v.pretty = v.prettyLines.map Line.text :=
  lines_joinLines (newline_not_mem_prettyLines v) (by simp [prettyLines, linesAt_ne_nil])

end SceneScript.Json
