import SceneScript.Proofs.Correlation.Exact

namespace SceneScript.Correlation

open Json Text

section Member

variable {front back : List (String × Json)} {value : Json}

theorem findIdx?_listMember (depth : Nat) {after : List Char}
    (ha : after = [] ∨ after = [',']) (value : Json) :
    (linesAt depth (label "sentenceList") after value).findIdx? (holds listWord) = some 0 := by
  have hfind := findIdx?_holds_linesAt word_listWord depth (some "sentenceList") ha value
  obtain ⟨t, ls, hshown⟩ := shownAt_eq_cons "sentenceList" value
  rw [hshown, List.findIdx?_cons, echoes_listKey] at hfind
  exact hfind

theorem count_before?_listKey_le {text : List Char}
    (h : before? listKey (object (front ++ ("sentenceList", value) :: back)).pretty = some text) :
    text.count '\n' ≤ (linesBefore front).length := by
  have hcount := count_before?_pretty (object (front ++ ("sentenceList", value) :: back))
  rw [h, Option.map_some, prettyLines_member, List.append_assoc, List.findIdx?_append,
    List.findIdx?_append, findIdx?_listMember 1 (separator_cases back) value] at hcount
  cases hfront : (linesBefore front).findIdx? (holds listWord) with
  | none =>
    rw [hfront] at hcount
    simpa using Nat.le_of_eq (Option.some.inj hcount)
  | some i =>
    rw [hfront] at hcount
    obtain ⟨hi, -⟩ := List.findIdx?_eq_some_iff_getElem.mp hfront
    have htext : text.count '\n' = i := Option.some.inj hcount
    omega

theorem length_lines_member (front : List (String × Json)) (key : String) (value : Json)
    (back : List (String × Json)) : (linesBefore front).length + height value <
      (lines (object (front ++ (key, value) :: back)).pretty).length := by
  rw [lines_pretty, prettyLines_member]
  simp

end Member

theorem exists_list_of_mapNumbers {f : JsonNumber → JsonNumber} {v : Json} {read : List Json}
    (h : (mapNumbers f v).get? "sentenceList" = some (array read)) :
    ∃ front items back, v = object (front ++ ("sentenceList", array items) :: back) := by
  cases v with
  | object members =>
    rw [mapNumbers, get?, lookup_mapMembers, Option.map_eq_some_iff] at h
    obtain ⟨value, hlookup, hvalue⟩ := h
    obtain ⟨front, back, rfl, -⟩ := List.lookup_eq_some_iff.mp hlookup
    cases value with
    | array items => exact ⟨front, items, back, rfl⟩
    | _ => simp [mapNumbers] at hvalue
  | _ => simp [mapNumbers, get?] at h

theorem locate_pretty_le {v : Json} (he : Each (Regular JsonNumber.Legible) v)
    (hn : nesting v ≤ greatestDepth) {line : Nat} {p : Position}
    (h : locate v.pretty line = .ok p) : p.line ≤ (lines v.pretty).length := by
  obtain ⟨hl, w, read, text, -, hread, hlist, hk, -⟩ := of_locate_eq_ok h
  rw [read?_pretty_of_legible he hn, Option.some.injEq] at hread
  subst hread
  obtain ⟨front, items, back, rfl⟩ : ∃ front items back,
      v = object (front ++ ("sentenceList", array items) :: back) :=
    exists_list_of_mapNumbers hlist
  obtain ⟨i, hi, rfl⟩ := (locate_pretty_eq_ok_iff front rfl he hn hk hl).mp h
  have hcount := count_before?_listKey_le hk
  have hlength := length_lines_member front "sentenceList" (array items) back
  obtain ⟨⟨_, hline, -⟩, -⟩ := markedLines_getElem?.mp hi
  have hlt := (List.getElem?_eq_some_iff.mp hline).1
  rw [List.length_map] at hlt
  have hheight : i < height (array items) := hlt
  simp only [Position.lineStart]
  omega

/-- A selection starts on line one or behind it and ends on a line of the text. It is ordered if and
only if the line that is found is at most two lines behind the last one, and so it is in the pretty
form of every value. -/
theorem select?_bounds {text : List Char} {line : Nat} {selection : Selection}
    (h : select? text line = some selection) :
    (1 ≤ selection.startLine ∧ 1 ≤ selection.endLine ∧
      selection.endLine ≤ (lines text).length) ∧
    (∃ p, locate text line = .ok p ∧
      (selection.startLine ≤ selection.endLine ↔
        p.line ≤ (lines text).length + contextLines)) ∧
    ∀ v, text = v.pretty → Each (Regular JsonNumber.Legible) v → nesting v ≤ greatestDepth →
      selection.startLine ≤ selection.endLine := by
  obtain ⟨p, hp, rfl⟩ := select?_eq_some_iff.mp h
  have hone := one_le_endLine text p.line
  have hle := endLine_le text p.line
  have hordered : max (p.line - contextLines) 1 ≤ endLine text p.line ↔
      p.line ≤ (lines text).length + contextLines := by
    have hend : p.line ≤ endLine text p.line ↔ p.line ≤ (lines text).length := le_endLine_iff
    rcases endLine_cases text p.line with hlast | hlast <;> omega
  refine ⟨⟨Nat.le_max_right _ _, hone, hle⟩, ⟨p, hp, hordered⟩, ?_⟩
  rintro v rfl he hn
  have hin := locate_pretty_le he hn hp
  exact hordered.mpr (Nat.le_trans hin (Nat.le_add_right _ _))

def oneSentence : Json :=
  object [("sentenceList", array [object [("command", .nat 0), ("commandRaw", .string "a")]])]

theorem select?_bounds_compact :
    select? oneSentence.compact 1 = some ⟨2, 1, 1, 1⟩ ∧
      (∃ p, locate oneSentence.compact 1 = .ok p ∧
        (lines oneSentence.compact).length + contextLines < p.line) ∧
      ∃ selection, select? oneSentence.pretty 1 = some selection ∧
        selection.startLine ≤ selection.endLine := by
  have hcompact : select? oneSentence.compact 1 = some ⟨2, 1, 1, 1⟩ := by decide +kernel
  have hpretty : select? oneSentence.pretty 1 = some ⟨3, 1, 6, 1⟩ := by decide +kernel
  have hfaithful : Each (Regular JsonNumber.Faithful) oneSentence := by
    simp [oneSentence, Each, EachItem, EachMember, Regular, JsonNumber.Faithful, Keyed, Json.nat]
    decide
  obtain ⟨-, ⟨p, hp, hordered⟩, -⟩ := select?_bounds hcompact
  refine ⟨hcompact, ⟨p, hp, ?_⟩, _, hpretty, ?_⟩
  · exact Nat.lt_of_not_le fun hle => absurd (hordered.mpr hle) (by decide)
  · have hlegible : Each (Regular JsonNumber.Legible) oneSentence :=
      hfaithful.mono fun _ h => h.mono fun _ hm => hm.legible
    exact (select?_bounds hpretty).2.2 oneSentence rfl hlegible (by decide)

end SceneScript.Correlation
