import SceneScript.Proofs.Correlation.Strays
import SceneScript.Proofs.Json.Extent

namespace SceneScript.Correlation

open Json Text

def listLine (s : Scene) : Nat :=
  if Echoes listWord s.name.toList then 1
  else if Echoes listWord s.url.toList then 2
  else 3

theorem count_before?_listKey (s : Scene) :
    (before? listKey s.toJson.pretty).map (List.count '\n') = some (listLine s) := by
  have hfind : s.toJson.prettyLines.findIdx? (holds listWord) =
      (shownAt none s.toJson).findIdx? (echoes listWord) :=
    findIdx?_holds_linesAt word_listWord 0 none (.inl rfl) s.toJson
  obtain ⟨rest, hshown⟩ := s.shownAt_toJson
  obtain ⟨t, ls, hlist⟩ := shownAt_eq_cons "sentenceList" s.list
  have hnone : echoes listWord [] = false := rfl
  have hname : echoes listWord ["sceneName", s.name] = decide (Echoes listWord s.name.toList) := by
    have hd : ¬ Echoes listWord "sceneName".toList := by decide
    simp only [echoes, List.any_cons, List.any_nil, decide_eq_false hd, Bool.false_or,
      Bool.or_false]
  have hurl : echoes listWord ["sceneUrl", s.url] = decide (Echoes listWord s.url.toList) := by
    have hd : ¬ Echoes listWord "sceneUrl".toList := by decide
    simp only [echoes, List.any_cons, List.any_nil, decide_eq_false hd, Bool.false_or,
      Bool.or_false]
  have hkey := echoes_listKey t
  rw [count_before?_pretty, hfind, hshown, hlist]
  simp only [List.cons_append, List.nil_append, List.findIdx?_cons, hnone, hname, hurl, hkey,
    Bool.false_eq_true, if_false, if_true, Option.map_some, decide_eq_true_eq, listLine]
  split
  · rfl
  · split <;> rfl

section Marks

variable {s : Scene} {front back : List Sentence} {x : Sentence}

def offset (front : List Sentence) : Nat :=
  1 + ((front.map Sentence.toJson).map height).sum

def shownAbove (front : List Sentence) : List (List String) :=
  [] :: shownItems (front.map Sentence.toJson) ++ [[], ["command"]]

theorem shownAt_list (h : s.sentences = front ++ x :: back) :
    ∃ rest, shownAt none s.list =
      shownAbove front ++ ["commandRaw", x.commandRaw] :: rest := by
  refine ⟨["content", x.content] :: x.shownDetails ++ [[]]
    ++ shownItems (back.map Sentence.toJson) ++ [[]], ?_⟩
  rw [Scene.list, h, List.map_append, List.map_cons, shownAt_array_append,
    Sentence.shownAt_toJson, shownAbove]
  simp

theorem length_shownAbove (front : List Sentence) :
    (shownAbove front).length = offset front + 2 := by
  simp only [shownAbove, List.cons_append, List.length_cons, List.length_append,
    length_shownItems, List.length_nil, offset]
  omega

theorem countP_shownAbove (front : List Sentence) :
    (shownAbove front).countP (echoes rawWord) =
      front.length + (front.map Sentence.strays).sum := by
  have hfront := itemMarks_sentences front
  have hnone : echoes rawWord [] = false := rfl
  have hcommand : echoes rawWord ["command"] = false := by decide
  rw [itemMarks] at hfront
  simp only [shownAbove, List.cons_append, List.countP_cons, List.countP_append, hfront, hnone,
    hcommand, List.countP_nil, Bool.false_eq_true, if_false, Nat.add_zero]

theorem echoes_commandRaw (raw : String) : echoes rawWord ["commandRaw", raw] = true := by
  have hd : Echoes rawWord "commandRaw".toList := by decide
  rw [echoes, List.any_cons, decide_eq_true hd, Bool.true_or]

theorem mark_of_sentence (h : s.sentences = front ++ x :: back) :
    (markedLines (s.list.prettyLines.map Line.text))[
      front.length + (front.map Sentence.strays).sum]? = some (offset front + 2) := by
  obtain ⟨rest, hshown⟩ := shownAt_list h
  rw [markedLines_prettyLines_getElem?, hshown, ← length_shownAbove]
  refine ⟨⟨["commandRaw", x.commandRaw], ?_, echoes_commandRaw _⟩, ?_⟩
  · simp
  · rw [List.take_left', countP_shownAbove]
    rfl

theorem index_of_mark (h : s.sentences = front ++ x :: back) {i : Nat}
    (hi : (markedLines (s.list.prettyLines.map Line.text))[front.length]? = some i) :
    i ≤ offset front + 2 ∧ (i = offset front + 2 ↔ (front.map Sentence.strays).sum = 0) := by
  have hm := mark_of_sentence h
  obtain hs | hs := Nat.eq_zero_or_pos (front.map Sentence.strays).sum
  · rw [hs, Nat.add_zero, hi, Option.some.injEq] at hm
    exact ⟨Nat.le_of_eq hm, by simp [hm, hs]⟩
  · have hlt := markedLines_lt hi hm (by omega)
    exact ⟨by omega, by omega⟩

theorem length_marks (s : Scene) :
    (markedLines (s.list.prettyLines.map Line.text)).length =
      s.sentences.length + (s.sentences.map Sentence.strays).sum := by
  have hm := markedLines_linesAt 0 none (.inl rfl) s.list
  have hi := itemMarks_sentences s.sentences
  rw [← marks_array, marks] at hi
  simp only [lead] at hm
  rw [prettyLines, hm, List.length_findIdxs, List.countP_map, ← hi]
  rfl

end Marks

theorem select?_eq_some_iff {text : List Char} {line : Nat} {selection : Selection} :
    select? text line = some selection ↔ ∃ p, locate text line = .ok p ∧
      selection = ⟨max (p.line - contextLines) 1, 1, endLine text p.line, 1⟩ := by
  cases hp : locate text line with
  | error e => simp [select?, hp, Except.toOption]
  | ok p => simp [select?, hp, Except.toOption, eq_comm]

theorem select?_zero (text : List Char) : select? text 0 = none := by
  rw [Option.eq_none_iff_forall_ne_some]
  intro selection hs
  obtain ⟨p, hp, -⟩ := select?_eq_some_iff.mp hs
  exact absurd (of_locate_eq_ok hp).1 (by decide)

section Selection

variable {s : Scene} {front back : List Sentence} {x : Sentence}

theorem locate_scene_eq_ok_iff (he : Each (Regular JsonNumber.Legible) s.toJson) (line : Nat)
    {p : Position} (hl : 1 ≤ line) :
    locate s.toJson.pretty line = .ok p ↔
      ∃ i, (markedLines (s.list.prettyLines.map Line.text))[line - 1]? = some i ∧
        p = .lineStart (listLine s + i + 1) := by
  obtain ⟨text, hk, hcount⟩ := Option.map_eq_some_iff.mp (count_before?_listKey s)
  have hn : nesting s.toJson ≤ greatestDepth := Nat.le_trans s.nesting_toJson (by decide)
  rw [← hcount]
  exact locate_pretty_eq_ok_iff [("sceneName", .string s.name), ("sceneUrl", .string s.url)]
    rfl he hn hk hl

theorem place?_sentence (h : s.sentences = front ++ x :: back) :
    place? [2, front.length] s.toJson = some (offset front + 3, x.toJson) := by
  have hlist : s.toJson.parts[2]? = some s.list := rfl
  have habove : ((s.toJson.parts.take 2).map height).sum = 2 := rfl
  have hx : s.list.parts[front.length]? = some x.toJson := by
    simp [Scene.list, parts, h]
  have htake : s.list.parts.take front.length = front.map Sentence.toJson := by
    rw [Scene.list, parts, h, List.map_append, List.take_left' (by simp)]
  simp only [place?, hlist, hx, habove, htake, Option.bind_some, Option.map_some, offset,
    Option.some.injEq, Prod.mk.injEq, and_true]
  omega

theorem span?_sentence (h : s.sentences = front ++ x :: back) :
    span? [2, front.length] s.toJson =
      some (offset front + 4, offset front + 3 + height x.toJson) := by
  rw [span?, place?_sentence h]
  rfl

theorem height_sentence (depth : Nat) (x : Sentence) :
    height x.toJson = (x.details (depth + 1)).length + 5 := by
  have hl := congrArg List.length (x.linesAt_toJson depth [] [])
  rw [linesAt_length] at hl
  simp only [hl, List.length_append, List.length_cons, List.length_nil]
  omega

theorem closes_details (depth : Nat) (x : Sentence) :
    ∀ l ∈ x.details depth, closes (2 * depth) l.text = false := by
  intro l hl
  simp only [Sentence.details, List.mem_append] at hl
  rcases hl with (hl | hl) | hl
  · exact closes_array (by decide) (.inr rfl) _ l hl
  · exact closes_array (by decide) (.inr rfl) _ l hl
  · exact closes_array (by decide) (.inl rfl) _ l hl

def stringLine (key t : String) : Line :=
  ⟨3, label key ++ quote t.toList ++ [',']⟩

theorem lines_sentence (h : s.sentences = front ++ x :: back) :
    ∃ above closing below, above.length = offset front + 5 ∧ closes (2 * 3) closing ∧
      lines s.toJson.pretty = above ++ (stringLine "commandRaw" x.commandRaw).text ::
        (stringLine "content" x.content).text :: ((x.details 3).map Line.text
          ++ closing :: below) := by
  obtain ⟨above, before, after, below, hlines, hlength, -, -⟩ :=
    linesAt_place 0 joined_nil (place?_sentence h)
  have hdepth : 0 + [2, front.length].length = 2 := rfl
  have htext : lines s.toJson.pretty = _ := lines_pretty s.toJson
  rw [prettyLines, hlines, hdepth, Sentence.linesAt_toJson] at htext
  refine ⟨above.map Line.text ++ [Line.text ⟨2, before ++ ['\x7b']⟩,
    Line.text ⟨3, label "command" ++ integer x.command.code ++ [',']⟩],
    Line.text ⟨2, '\x7d' :: after⟩, below.map Line.text, ?_, ?_, ?_⟩
  · simp [hlength]
  · have hs : Line.Solid ⟨2, '\x7d' :: after⟩ := ⟨'\x7d', after, rfl, by decide⟩
    rw [hs.closes_eq]
    simp
  · rw [htext]
    simp [stringLine]

theorem endLine_sentence (h : s.sentences = front ++ x :: back) :
    endLine s.toJson.pretty (offset front + 6) =
      if '\x7d' ∈ x.content.toList then offset front + 7
      else offset front + 3 + height x.toJson := by
  obtain ⟨above, closing, below, habove, hclosing, hlines⟩ := lines_sentence h
  have hopening : indentation? (stringLine "commandRaw" x.commandRaw).text = some (2 * 3) :=
    (solid_of_lead 3 [','] (.atom (.string x.commandRaw))
      (.inr ⟨"commandRaw", rfl⟩)).indentation?
  have hcontent : closes (2 * 3) (stringLine "content" x.content).text =
      x.content.toList.contains '\x7d' :=
    closes_string (by decide) (.inr rfl)
  have hheight : height x.toJson = (x.details 3).length + 5 := height_sentence 2 x
  have hstart : above.length + 1 = offset front + 6 := by omega
  split
  · rename_i hb
    have hend := endLine_of_lines [] hlines hopening (by simp)
      (by rw [hcontent]; simpa using hb)
    rw [hstart, habove] at hend
    exact hend
  · rename_i hb
    have hend := endLine_of_lines
      ((stringLine "content" x.content).text :: (x.details 3).map Line.text)
      hlines hopening ?_ hclosing
    · rw [hstart, habove, List.length_cons, List.length_map] at hend
      omega
    · intro l hl
      rcases List.mem_cons.mp hl with rfl | hl
      · rw [hcontent]
        simpa using hb
      · obtain ⟨line, hline, rfl⟩ := List.mem_map.mp hl
        exact closes_details 3 x line hline

/-- The selection for a line in a text is the sentence of the line, from its opening brace to its
closing one. -/
def Selects (s : Scene) (text : List Char) (line : Nat) : Prop :=
  ∃ first last, span? [2, line - 1] s.toJson = some (first, last) ∧
    select? text line = some ⟨first, 1, last, 1⟩

theorem Selects.braces (h : s.sentences = front ++ x :: back)
    (hs : Selects s s.toJson.pretty (front.length + 1)) :
    ∃ selection before after, select? s.toJson.pretty (front.length + 1) = some selection ∧
      Joined before after ∧
      (lines s.toJson.pretty)[selection.startLine - 1]? =
        some (indent 2 ++ before ++ ['\x7b']) ∧
      (lines s.toJson.pretty)[selection.endLine - 1]? = some (indent 2 ++ '\x7d' :: after) := by
  obtain ⟨first, last, hspan, hselect⟩ := hs
  obtain ⟨first', last', before, after, hspan', hjoined, -, hfirst, hlast⟩ :=
    lines_span?_object (place?_sentence h)
  rw [Nat.add_sub_cancel, hspan', Option.some.injEq, Prod.mk.injEq] at hspan
  obtain ⟨rfl, rfl⟩ := hspan
  exact ⟨_, before, after, hselect, hjoined, hfirst, hlast⟩

theorem listLine_le (s : Scene) : listLine s ≤ 3 := by
  unfold listLine
  split
  · omega
  · split <;> omega

theorem listLine_eq_three_iff (s : Scene) :
    listLine s = 3 ↔ ¬ Echoes listWord s.name.toList ∧ ¬ Echoes listWord s.url.toList := by
  unfold listLine
  split
  · simp_all
  · split <;> simp_all

theorem selects_iff (he : Each (Regular JsonNumber.Legible) s.toJson)
    (h : s.sentences = front ++ x :: back) :
    Selects s s.toJson.pretty (front.length + 1) ↔
      (¬ Echoes listWord s.name.toList ∧ ¬ Echoes listWord s.url.toList) ∧
      (front.map Sentence.strays).sum = 0 ∧ '\x7d' ∉ x.content.toList := by
  have hspan := span?_sentence h
  have hend := endLine_sentence h
  have hheight := height_sentence 2 x
  have hlist := listLine_le s
  rw [← listLine_eq_three_iff]
  constructor
  · rintro ⟨first, last, hs, hselect⟩
    obtain ⟨p, hp, hselection⟩ := select?_eq_some_iff.mp hselect
    obtain ⟨i, hi, rfl⟩ := (locate_scene_eq_ok_iff he _ (by omega)).mp hp
    obtain ⟨hle, heq⟩ := index_of_mark h hi
    rw [Nat.add_sub_cancel, hspan, Option.some.injEq, Prod.mk.injEq] at hs
    obtain ⟨rfl, rfl⟩ := hs
    simp only [Selection.mk.injEq, Position.lineStart, contextLines] at hselection
    obtain ⟨hstart, -, hlast, -⟩ := hselection
    -- both counts are at most those of a scene without strays, and their sum is the same
    have hthree : listLine s = 3 := by omega
    have hindex : i = offset front + 2 := by omega
    have hline : listLine s + i + 1 = offset front + 6 := by omega
    rw [hline, hend] at hlast
    refine ⟨hthree, heq.mp hindex, fun hb => ?_⟩
    rw [if_pos hb] at hlast
    omega
  · rintro ⟨hthree, hstrays, hb⟩
    have hm := mark_of_sentence h
    rw [hstrays, Nat.add_zero] at hm
    have hp := (locate_scene_eq_ok_iff he (front.length + 1) (by omega)).mpr
      ⟨offset front + 2, hm, rfl⟩
    have hline : listLine s + (offset front + 2) + 1 = offset front + 6 := by omega
    rw [hline] at hp
    rw [if_neg hb] at hend
    refine ⟨_, _, hspan, select?_eq_some_iff.mpr ⟨_, hp, ?_⟩⟩
    simp only [Position.lineStart, hend, contextLines, Selection.mk.injEq, and_true]
    omega

theorem select?_eq_none_iff (he : Each (Regular JsonNumber.Legible) s.toJson) {line : Nat}
    (hl : 1 ≤ line) :
    select? s.toJson.pretty line = none ↔
      s.sentences.length + (s.sentences.map Sentence.strays).sum < line := by
  rw [← length_marks, Option.eq_none_iff_forall_ne_some]
  constructor
  · intro h
    by_contra hle
    have hlt : line - 1 < (markedLines (s.list.prettyLines.map Line.text)).length := by omega
    have hp := (locate_scene_eq_ok_iff he line hl).mpr ⟨_, List.getElem?_eq_getElem hlt, rfl⟩
    exact h _ (select?_eq_some_iff.mpr ⟨_, hp, rfl⟩)
  · intro hlt selection hs
    obtain ⟨p, hp, -⟩ := select?_eq_some_iff.mp hs
    obtain ⟨i, hi, -⟩ := (locate_scene_eq_ok_iff he line hl).mp hp
    have hlength := (List.getElem?_eq_some_iff.mp hi).1
    omega

/-- Up to a number of lines the sentence of each line is selected, and nothing for other lines. -/
def Exact (s : Scene) (text : List Char) (count : Nat) : Prop :=
  (∀ line, 1 ≤ line → line ≤ count → Selects s text line) ∧
    ∀ line, line = 0 ∨ count < line → select? text line = none

theorem sum_strays_eq_zero_iff (xs : List Sentence) :
    (xs.map Sentence.strays).sum = 0 ↔ ∀ x ∈ xs, ∀ t ∈ x.strings, ¬ Echoes rawWord t.toList := by
  induction xs with
  | nil => simp
  | cons x xs ih =>
    rw [List.map_cons, List.sum_cons, Nat.add_eq_zero_iff, ih, Sentence.strays_eq_zero_iff,
      List.forall_mem_cons]

theorem selects_of_exact (h : Exact s s.toJson.pretty s.sentences.length)
    (hs : s.sentences = front ++ x :: back) :
    Selects s s.toJson.pretty (front.length + 1) :=
  h.1 _ (by omega) (by simp [hs])

theorem exact_iff_of_legible (he : Each (Regular JsonNumber.Legible) s.toJson)
    (hn : s.sentences ≠ []) :
    Exact s s.toJson.pretty s.sentences.length ↔
      (¬ Echoes listWord s.name.toList ∧ ¬ Echoes listWord s.url.toList) ∧
      (∀ x ∈ s.sentences, ∀ t ∈ x.strings, ¬ Echoes rawWord t.toList) ∧
      ∀ x ∈ s.sentences, '\x7d' ∉ x.content.toList := by
  constructor
  · intro h
    obtain ⟨first, rest, hs⟩ := List.exists_cons_of_ne_nil hn
    have hsplit : s.sentences = [] ++ first :: rest := hs
    have hnames := ((selects_iff he hsplit).mp (selects_of_exact h hsplit)).1
    -- nothing is selected behind the last line, so no string is a mark
    have hbehind := h.2 (s.sentences.length + 1) (.inr (by omega))
    rw [select?_eq_none_iff he (by omega)] at hbehind
    refine ⟨hnames, (sum_strays_eq_zero_iff _).mp (by omega), fun x hx => ?_⟩
    obtain ⟨front, back, hx⟩ := List.append_of_mem hx
    exact ((selects_iff he hx).mp (selects_of_exact h hx)).2.2
  · rintro ⟨hnames, hstrays, hbraces⟩
    constructor
    · intro line hl hle
      have hx := eq_append_of_getElem? (List.getElem?_eq_getElem (l := s.sentences)
        (i := line - 1) (by omega))
      have hlength : (s.sentences.take (line - 1)).length + 1 = line := by
        rw [List.length_take]
        omega
      have hselects := selects_iff he hx
      rw [hlength] at hselects
      refine hselects.mpr ⟨hnames, ?_, hbraces _ (List.getElem_mem _)⟩
      rw [sum_strays_eq_zero_iff]
      exact fun y hy => hstrays y (List.mem_of_mem_take hy)
    · rintro line (rfl | hlt)
      · exact select?_zero _
      · rw [select?_eq_none_iff he (by omega), (sum_strays_eq_zero_iff _).mpr hstrays]
        omega

end Selection

end SceneScript.Correlation
