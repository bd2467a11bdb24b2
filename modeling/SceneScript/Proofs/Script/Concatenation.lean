import SceneScript.Proofs.Script.Sentences
import SceneScript.Proofs.Text.Occurrence

namespace List

variable {α : Type} [BEq α] [LawfulBEq α]

theorem eraseDups_filter (p : α → Bool) (l : List α) :
    (l.filter p).eraseDups = l.eraseDups.filter p := by
  match l with
  | [] => rfl
  | a :: l =>
    have hcomm : (l.filter p).filter (fun b => !b == a) = (l.filter (fun b => !b == a)).filter p := by
      simp only [filter_filter, Bool.and_comm]
    by_cases ha : p a
    · rw [filter_cons_of_pos ha, eraseDups_cons, hcomm, eraseDups_filter p, eraseDups_cons,
        filter_cons_of_pos ha]
    · have hne : ∀ b ∈ l.filter p, (!b == a) = true := by
        intro b hb
        have hpb := (mem_filter.mp hb).2
        simp only [Bool.not_eq_true', beq_eq_false_iff_ne, ne_eq]
        rintro rfl
        exact ha hpb
      rw [filter_cons_of_neg ha, eraseDups_cons, filter_cons_of_neg ha, ← eraseDups_filter p,
        ← hcomm, filter_eq_self.mpr hne]
termination_by l.length
decreasing_by all_goals exact Nat.lt_succ_of_le (length_filter_le _ _)

theorem eraseDups_append_filter (l m : List α) :
    (l ++ m).eraseDups = l.eraseDups ++ m.eraseDups.filter (!l.eraseDups.contains ·) := by
  have hc : ∀ a, l.eraseDups.contains a = l.contains a := by
    intro a
    rw [Bool.eq_iff_iff, contains_iff_mem, contains_iff_mem, mem_eraseDups]
  rw [eraseDups_append, removeAll, eraseDups_filter]
  simp only [elem_eq_contains, hc]

end List

namespace SceneScript

def Asset.shifted (k : Nat) (a : Asset) : Asset :=
  { a with lineNumber := a.lineNumber + k }

def Sentence.shifted (k : Nat) (s : Sentence) : Sentence :=
  { s with assets := s.assets.map (Asset.shifted k) }

namespace Script

open Text

theorem lines_append (s t : List Char) : lines (s ++ '\n' :: t) = lines s ++ lines t :=
  List.splitOn_append_cons_self s t

theorem newline_not_mem_of_mem_lines {s l : List Char} (h : l ∈ lines s) : '\n' ∉ l := by
  induction s generalizing l with
  | nil =>
    have hl : l = [] := by simpa [lines, List.splitOn_nil] using h
    simp [hl]
  | cons c s ih =>
    simp only [lines, List.splitOn_cons_eq_if_modifyHead, beq_iff_eq] at h ih
    split at h
    · rcases List.mem_cons.mp h with rfl | h
      · simp
      · exact ih h
    · rename_i hc
      obtain ⟨first, rest, hs⟩ := List.exists_cons_of_ne_nil (List.splitOn_ne_nil '\n' s)
      rw [hs, List.modifyHead_cons] at h
      rcases List.mem_cons.mp h with rfl | h
      · intro hn
        rcases List.mem_cons.mp hn with he | hn
        · exact hc he.symm
        · exact ih (hs ▸ List.mem_cons_self) hn
      · exact ih (hs ▸ List.mem_cons_of_mem _ h)

theorem sentence_shifted (base : List Char) (number k : Nat) (command : Command)
    (raw content : List Char) (args : List Arg) :
    sentence base (number + k) command raw content args =
      (sentence base number command raw content args).shifted k := by
  simp [sentence, Sentence.shifted, Asset.shifted, Function.comp_def]

theorem parseLine_shifted (base : List Char) (number k : Nat) (line : List Char) :
    parseLine base (number + k) line = (parseLine base number line).shifted k := by
  unfold parseLine
  simp only
  split
  · rfl
  · exact sentence_shifted ..

theorem parseLines_shifted (base : List Char) (number k : Nat) (ls : List (List Char)) :
    parseLines base (number + k) ls = (parseLines base number ls).map (Sentence.shifted k) := by
  induction ls generalizing number with
  | nil => rfl
  | cons l ls ih =>
    rw [parseLines, parseLines, List.map_cons, parseLine_shifted, ← ih, Nat.add_right_comm]

theorem parseLines_append (base : List Char) (number : Nat) (ls ms : List (List Char)) :
    parseLines base number (ls ++ ms) =
      parseLines base number ls ++ (parseLines base number ms).map (Sentence.shifted ls.length) := by
  rw [← parseLines_shifted]
  induction ls generalizing number with
  | nil => rfl
  | cons l ls ih =>
    have hn : number + (l :: ls).length = number + 1 + ls.length := by simp; omega
    rw [List.cons_append, parseLines, ih, parseLines, hn, List.cons_append]

theorem parseLines_getElem? (base : List Char) (number : Nat) (ls : List (List Char)) (i : Nat) :
    (parseLines base number ls)[i]? =
      ls[i]?.map fun l => parseLine base (number + i) (dropEndWhile (· == '\r') l) := by
  induction ls generalizing number i with
  | nil => simp [parseLines]
  | cons l ls ih =>
    cases i with
    | zero => simp [parseLines]
    | succ i => simp [parseLines, ih, Nat.add_right_comm, Nat.add_assoc]

theorem flatMap_assets_shifted (k : Nat) (ss : List Sentence) :
    (ss.map (Sentence.shifted k)).flatMap Sentence.assets =
      (ss.flatMap Sentence.assets).map (Asset.shifted k) := by
  simp [List.flatMap_map, List.map_flatMap, Sentence.shifted]

theorem flatMap_subScenes_shifted (k : Nat) (ss : List Sentence) :
    (ss.map (Sentence.shifted k)).flatMap Sentence.subScenes = ss.flatMap Sentence.subScenes := by
  simp [List.flatMap_map, Sentence.shifted]

def replaceLine (text : String) (i : Nat) (line : String) : String :=
  String.ofList (joinLines ((lines text.toList).set i line.toList))

theorem lines_replaceLine {line : String} (hl : '\n' ∉ line.toList) (text : String) (i : Nat) :
    lines (replaceLine text i line).toList = (lines text.toList).set i line.toList := by
  rw [replaceLine, String.toList_ofList]
  apply lines_joinLines
  · intro l hm
    rcases List.mem_or_eq_of_mem_set hm with hm | rfl
    · exact newline_not_mem_of_mem_lines hm
    · exact hl
  · simpa [List.set_eq_nil_iff] using lines_ne_nil text.toList

/-- The scene of two scripts with a line break between them, and of a script with a line replaced.
-/
theorem parse_append (t u name base : String) :
    let k := (lines t.toList).length
    let a := parse t name base
    let b := parse u name base
    let joined := parse (t ++ "\n" ++ u) name base
    joined.sentences = a.sentences ++ b.sentences.map (Sentence.shifted k) ∧
    joined.assets = a.assets ++ b.assets.map (Asset.shifted k) ∧
    joined.subScenes = a.subScenes ++ b.subScenes.filter (!a.subScenes.contains ·) ∧
    ∀ i line, '\n' ∉ line.toList → ∀ j, j ≠ i →
      (parse (replaceLine t i line) name base).sentences[j]? = a.sentences[j]? := by
  intro k a b joined
  have hs : joined.sentences = a.sentences ++ b.sentences.map (Sentence.shifted k) := by
    have hl : lines (t ++ "\n" ++ u).toList = lines t.toList ++ lines u.toList := by
      simp [← lines_append]
    simp only [joined, a, b, k, parse, hl, parseLines_append]
  refine ⟨hs, ?_, ?_, ?_⟩
  · change joined.sentences.flatMap Sentence.assets = _
    rw [hs, List.flatMap_append, flatMap_assets_shifted]
    rfl
  · change (joined.sentences.flatMap Sentence.subScenes).eraseDups = _
    rw [hs, List.flatMap_append, flatMap_subScenes_shifted, List.eraseDups_append_filter]
    rfl
  · intro i line hline j hj
    simp only [a, parse, parseLines_getElem?, lines_replaceLine hline, List.getElem?_set_ne hj.symm]

theorem parse_append_choice :
    let t := "bgm:a.mp3\nchoose:Left:l.txt|Right:r.txt\r"
    let u := "\ncallScene:r.txt\ncallScene:s.txt"
    let joined := parse (t ++ "\n" ++ u) "start" "game/"
    joined.assets.map Asset.lineNumber = [1, 2, 2, 4, 5] ∧
      joined.subScenes = ["l.txt", "r.txt", "s.txt"] ∧
      '\n' ∉ "A;B".toList ∧
      (parse (replaceLine t 0 "A;B") "start" "game/").sentences[1]? =
        (parse t "start" "game/").sentences[1]? := by
  intro t u joined
  have hline : '\n' ∉ "A;B".toList := by decide
  obtain ⟨-, hassets, hsub, hreplace⟩ := parse_append t u "start" "game/"
  refine ⟨?_, ?_, hline, hreplace 0 "A;B" hline 1 (by decide)⟩
  · rw [hassets]
    decide +kernel
  · rw [hsub]
    decide +kernel

end Script
end SceneScript
