import SceneScript.Proofs.Correlation.Reached

namespace SceneScript.Correlation

open Json Text

theorem listMarks_eq (items : List Json) :
    listMarks items = (shownAt none (.array items)).findIdxs (echoes rawWord) := by
  have h := markedLines_linesAt 0 none (.inl rfl) (.array items)
  rwa [List.findIdxs_map] at h

theorem lineIndexAt_listKey (v : Json) :
    (before? listKey v.pretty).map (fun front => lineIndexAt v.pretty (byteLength front)) =
      (shownAt none v).findIdx? (echoes listWord) := by
  have hcount := count_before?_pretty v
  have hfind := findIdx?_holds_linesAt word_listWord 0 none (.inl rfl) v
  rw [← hfind]
  refine Eq.trans ?_ hcount
  cases hfront : before? listKey v.pretty with
  | none => rfl
  | some front => simp [lineIndexAt_before? hfront]

/-- The lines of a pretty form print the strings of the value, and a word stands in quotes on those
that print a string which is the word, or which ends with a quote and the word. The marks of a list
are the lines that print such a string for the key of a mark, and the correlation finds the key of
the list on the first line that prints one for that key. -/
theorem quoted_iff_echoed {w : List Char} (hw : Word w) (v : Json) :
    List.Forall₂
      (fun line strings => Prints line strings ∧ ('"' :: (w ++ ['"']) <:+: line ↔
        ∃ s ∈ strings, s.toList = w ∨ '"' :: w <:+ s.toList))
      (lines v.pretty) (shownAt none v) ∧
    (before? listKey v.pretty).map (fun front => lineIndexAt v.pretty (byteLength front)) =
      (shownAt none v).findIdx? (echoes listWord) ∧
    ∀ text line p, locate text line = .ok p ↔
      1 ≤ line ∧ ∃ value items front i, read? text = some value ∧
        value.get? "sentenceList" = some (.array items) ∧ before? listKey text = some front ∧
        ((shownAt none (.array items)).findIdxs (echoes rawWord))[line - 1]? = some i ∧
        p = .lineStart (lineIndexAt text (byteLength front) + i + 1) := by
  refine ⟨?_, lineIndexAt_listKey v, fun text line p => ?_⟩
  · have hprints := prints_linesAt 0 none (.inl rfl) v
    rw [lines_pretty]
    refine hprints.imp fun line strings h => ⟨h, ?_⟩
    rw [← hw.plain.quote_eq, h.quote_infix_iff hw]
    exact echoes_iff
  · simp only [← listMarks_eq]
    exact locate_eq_ok_iff

theorem quoted_iff_echoed_escaped :
    let v := object [("list\"end", .array [.string "\\\"end", .string "\\end"])]
    Word "end".toList ∧ ∃ opening key first second below,
      lines v.pretty = opening :: key :: first :: second :: below ∧
      "\"end\"".toList <:+: key ∧ "\"end\"".toList <:+: first ∧ ¬"\"end\"".toList <:+: second := by
  intro v
  have hw : Word "end".toList := ⟨by decide, List.all_eq_true.mp (by decide)⟩
  have hshown : shownAt none v = [[], ["list\"end"], ["\\\"end"], ["\\end"], [], []] := rfl
  obtain ⟨hall, -⟩ := quoted_iff_echoed hw v
  rw [hshown] at hall
  obtain ⟨opening, ls, -, hmembers, hlines⟩ := List.forall₂_cons_right_iff.mp hall
  obtain ⟨key, ls, ⟨-, hkey⟩, hitems, rfl⟩ := List.forall₂_cons_right_iff.mp hmembers
  obtain ⟨first, ls, ⟨-, hfirst⟩, hrest, rfl⟩ := List.forall₂_cons_right_iff.mp hitems
  obtain ⟨second, below, ⟨-, hsecond⟩, -, rfl⟩ := List.forall₂_cons_right_iff.mp hrest
  exact ⟨hw, opening, key, first, second, below, hlines,
    hkey.mpr ⟨_, List.mem_singleton_self _, by decide⟩,
    hfirst.mpr ⟨_, List.mem_singleton_self _, by decide⟩, hsecond.not.mpr (by decide)⟩

end SceneScript.Correlation
