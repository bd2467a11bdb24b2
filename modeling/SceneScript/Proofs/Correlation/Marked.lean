import Mathlib.Data.List.Basic
import SceneScript.Correlation.Locate
import SceneScript.Proofs.Json.Place
import SceneScript.Proofs.Json.RoundTrip
import SceneScript.Proofs.Json.Shown

namespace SceneScript.Correlation

open Json Text

theorem markedLines_eq_findIdxs (ls : List (List Char)) :
    markedLines ls = ls.findIdxs isMarked := by
  rw [markedLines, List.findIdxs_eq_filterMap_zipIdx, ← List.filterMap_eq_filter]
  simp [List.map_filterMap, Option.guard, cond_eq_ite]

theorem length_markedLines (ls : List (List Char)) :
    (markedLines ls).length = ls.countP isMarked := by
  rw [markedLines_eq_findIdxs, List.length_findIdxs]

theorem getElem?_findIdxs {α : Type} {p : α → Bool} {xs : List α} {k i : Nat} :
    (xs.findIdxs p)[k]? = some i ↔
      (∃ x, xs[i]? = some x ∧ p x) ∧ (xs.take i).countP p = k := by
  induction xs generalizing k i with
  | nil => simp
  | cons x xs ih =>
    rw [List.findIdxs_cons, List.findIdxs_start]
    cases i with
    | zero =>
      cases hp : p x with
      | false => simp [hp]
      | true => cases k <;> simp [hp]
    | succ i =>
      cases hp : p x with
      | false => simp [hp, ih]
      | true =>
        cases k with
        | zero => simp [hp]
        | succ k => simp [hp, ih]

theorem markedLines_getElem? {ls : List (List Char)} {k i : Nat} :
    (markedLines ls)[k]? = some i ↔
      (∃ l, ls[i]? = some l ∧ isMarked l) ∧ (ls.take i).countP isMarked = k := by
  rw [markedLines_eq_findIdxs, getElem?_findIdxs]

theorem markedLines_lt {ls : List (List Char)} {j k a b : Nat} (ha : (markedLines ls)[j]? = some a)
    (hb : (markedLines ls)[k]? = some b) (h : j < k) : a < b := by
  obtain ⟨hj, rfl⟩ := List.getElem?_eq_some_iff.mp ha
  obtain ⟨hk, rfl⟩ := List.getElem?_eq_some_iff.mp hb
  have hp : (markedLines ls).Pairwise (· < ·) := by
    rw [markedLines_eq_findIdxs]
    exact List.pairwise_findIdxs
  exact List.pairwise_iff_getElem.mp hp j k hj hk h

def rawWord : List Char :=
  "commandRaw".toList

def listWord : List Char :=
  "sentenceList".toList

theorem word_rawWord : Word rawWord :=
  ⟨by decide, List.all_eq_true.mp (by decide)⟩

theorem word_listWord : Word listWord :=
  ⟨by decide, List.all_eq_true.mp (by decide)⟩

theorem markedLines_linesAt (depth : Nat) (key : Option String) {after : List Char}
    (ha : after = [] ∨ after = [',']) (v : Json) :
    markedLines ((linesAt depth (lead key) after v).map Line.text) =
      ((shownAt key v).map (echoes rawWord)).findIdxs id := by
  rw [markedLines_eq_findIdxs, List.findIdxs_map, ← holds_linesAt word_rawWord depth key ha v,
    List.findIdxs_map]
  rfl

theorem length_shownAt (key : Option String) (v : Json) : (shownAt key v).length = height v := by
  have h := congrArg List.length (holds_linesAt word_rawWord 0 key (.inl rfl) v)
  rw [List.length_map, List.length_map, linesAt_length] at h
  exact h.symm

theorem length_shownItems (items : List Json) :
    (shownItems items).length = (items.map height).sum := by
  induction items with
  | nil => rfl
  | cons item items ih => simp [shownItems, length_shownAt, ih]

theorem markedLines_prettyLines_getElem? {v : Json} {k i : Nat} :
    (markedLines (v.prettyLines.map Line.text))[k]? = some i ↔
      (∃ t, (shownAt none v)[i]? = some t ∧ echoes rawWord t) ∧
        ((shownAt none v).take i).countP (echoes rawWord) = k := by
  have h := markedLines_linesAt 0 none (.inl rfl) v
  simp only [lead] at h
  rw [prettyLines, h, getElem?_findIdxs, ← List.map_take, List.countP_map]
  simp

theorem markedLines_list (depth : Nat) {after : List Char} (ha : after = [] ∨ after = [','])
    (v : Json) :
    markedLines ((linesAt depth (label "sentenceList") after v).map Line.text) =
      markedLines (v.prettyLines.map Line.text) := by
  have hkey : ¬ Echoes rawWord "sentenceList".toList := by decide
  have hl := markedLines_linesAt depth (some "sentenceList") ha v
  have hv := markedLines_linesAt 0 none (.inl rfl) v
  rw [map_echoes_shownAt hkey, ← hv] at hl
  exact hl

theorem markedLines_mapItems (f : JsonNumber → JsonNumber) (items : List Json) :
    markedLines ((array (mapItems f items)).prettyLines.map Line.text) =
      markedLines ((array items).prettyLines.map Line.text) := by
  have hf := markedLines_linesAt 0 none (.inl rfl) (mapNumbers f (array items))
  rw [shownAt_mapNumbers, ← markedLines_linesAt 0 none (.inl rfl)] at hf
  exact hf

theorem count_before?_pretty (v : Json) :
    (before? listKey v.pretty).map (List.count '\n') = v.prettyLines.findIdx? (holds listWord) := by
  have hcount := count_before?_joinLines (w := listKey) (by decide) (by decide)
    (newline_not_mem_prettyLines v)
  rw [List.findIdx?_map] at hcount
  exact hcount

theorem echoes_listKey (t : List String) : echoes listWord ("sentenceList" :: t) = true := by
  have hd : Echoes listWord "sentenceList".toList := by decide
  rw [echoes, List.any_cons, decide_eq_true hd, Bool.true_or]

theorem get?_member {front back : List (String × Json)} {key : String} {value : Json}
    (h : Keyed (object (front ++ (key, value) :: back))) :
    (object (front ++ (key, value) :: back)).get? key = some value := by
  have hf : front.lookup key = none := by
    rw [List.lookup_eq_none_iff]
    intro m hm
    simp only [Keyed, List.map_append, List.map_cons, List.nodup_append] at h
    exact bne_iff_ne.mpr (Ne.symm (h.2.2 m.1 (List.mem_map_of_mem hm) key (by simp)))
  rw [get?, List.lookup_append, hf]
  simp

theorem of_locate_eq_ok {text : List Char} {line : Nat} {p : Position}
    (h : locate text line = .ok p) :
    1 ≤ line ∧ ∃ v items front i, read? text = some v ∧
      v.get? "sentenceList" = some (array items) ∧ before? listKey text = some front ∧
      (markedLines ((array items).prettyLines.map Line.text))[line - 1]? = some i ∧
      p = .lineStart (lineIndexAt text (byteLength front) + i + 1) := by
  unfold locate at h
  split at h
  · simp at h
  · rename_i v hread
    split at h
    · simp at h
    · rename_i items hitems
      split at h
      · simp at h
      · rename_i hline
        split at h
        · simp at h
        · rename_i front hfront
          simp only at h
          split at h
          · rename_i i hi
            have hp := Except.ok.inj h
            exact ⟨by omega, v, items, front, i, hread, hitems, hfront, hi, hp.symm⟩
          · simp at h
    · simp at h

section Located

variable {v : Json} {back : List (String × Json)} {items : List Json} {p : Position}

theorem locate_pretty_eq_ok_iff (front : List (String × Json)) {line : Nat}
    (hv : v = object (front ++ ("sentenceList", array items) :: back))
    (he : Each (Regular JsonNumber.Legible) v) (hn : nesting v ≤ greatestDepth) {text : List Char}
    (hk : before? listKey v.pretty = some text) (hl : 1 ≤ line) :
    locate v.pretty line = .ok p ↔
      ∃ i, (markedLines ((array items).prettyLines.map Line.text))[line - 1]? = some i ∧
        p = .lineStart (text.count '\n' + i + 1) := by
  have hr := read?_pretty_of_legible he hn
  have hg : (mapNumbers JsonNumber.reread v).get? "sentenceList" =
      some (array (mapItems JsonNumber.reread items)) := by
    subst hv
    have hg := get?_member he.1
    simp only [get?] at hg
    simp only [mapNumbers, get?, lookup_mapMembers, hg, Option.map_some]
  have hz : ¬ line = 0 := by omega
  simp only [locate, hr, hg, hk, if_neg hz, lineIndexAt_before? hk, markedLines_mapItems]
  cases (markedLines ((array items).prettyLines.map Line.text))[line - 1]? with
  | none => simp
  | some i => simp [eq_comm]

theorem locate_pretty {front : List (String × Json)} (line : Nat)
    (hv : v = object (front ++ ("sentenceList", array items) :: back))
    (he : Each (Regular JsonNumber.Faithful) v) (hn : nesting v ≤ greatestDepth)
    (hk : before? listKey v.pretty = some (textBefore front)) (hl : 1 ≤ line) :
    ∃ above printed below, lines v.pretty = above ++ printed ++ below ∧
      above = (linesBefore front).map Line.text ∧
      printed = (linesAt 1 (label "sentenceList") (separator back) (array items)).map Line.text ∧
      ((∃ p, locate v.pretty line = .ok p) ↔ line ≤ printed.countP isMarked) ∧
      ∀ p, locate v.pretty line = .ok p →
        ∃ i l, printed[i]? = some l ∧ isMarked l ∧ (printed.take i).countP isMarked = line - 1 ∧
          p = .lineStart (above.length + i + 1) := by
  have hlines : lines v.pretty = _ := lines_pretty v
  have hparts := prettyLines_member front "sentenceList" (array items) back
  rw [hv, hparts, List.map_append, List.map_append, ← hv] at hlines
  have hlegible : Each (Regular JsonNumber.Legible) v :=
    he.mono fun _ h => h.mono fun _ hm => hm.legible
  have hlocate := fun p => locate_pretty_eq_ok_iff front (p := p) hv hlegible hn hk hl
  have hlist := markedLines_list 1 (separator_cases back) (array items)
  simp only [count_textBefore, ← hlist] at hlocate
  refine ⟨_, _, _, hlines, rfl, rfl, ?_, ?_⟩
  · rw [← length_markedLines]
    constructor
    · rintro ⟨p, hp⟩
      obtain ⟨i, hi, -⟩ := (hlocate p).mp hp
      have hlt := (List.getElem?_eq_some_iff.mp hi).1
      omega
    · intro hle
      have hlt : line - 1 < (markedLines ((linesAt 1 (label "sentenceList") (separator back)
        (array items)).map Line.text)).length := by omega
      exact ⟨_, (hlocate _).mpr ⟨_, List.getElem?_eq_getElem hlt, rfl⟩⟩
  · intro p hp
    obtain ⟨i, hi, rfl⟩ := (hlocate p).mp hp
    obtain ⟨⟨l, hl, hm⟩, hcount⟩ := markedLines_getElem?.mp hi
    rw [List.length_map]
    exact ⟨i, l, hl, hm, hcount, rfl⟩

def twoMarks : List (String × Json) × List Json :=
  ([("first", object [("commandRaw", .string "\x7b")])],
    [object [("commandRaw", .string "sentence")], .string "commandRaw", .nat 7])

theorem locate_pretty_twoMarks :
    ∃ p, locate (object (twoMarks.1 ++ [("sentenceList", array twoMarks.2)])).pretty 2 = .ok p := by
  have he : Each (Regular JsonNumber.Faithful)
      (object (twoMarks.1 ++ [("sentenceList", array twoMarks.2)])) := by
    simp [twoMarks, Each, EachItem, EachMember, Regular, JsonNumber.Faithful, Keyed, Json.nat]
    decide
  obtain ⟨above, printed, below, -, -, rfl, h, -⟩ :=
    locate_pretty 2 rfl he (by decide) (by decide) (by decide)
  exact h.mpr (by decide)

end Located

end SceneScript.Correlation
