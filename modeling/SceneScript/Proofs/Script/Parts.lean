import SceneScript.Proofs.Script.Sentences

namespace SceneScript

open Text

def Arg.Written (a : Arg) : Prop :=
  (∃ raw, a.value = ArgValue.ofRaw raw) ∨ a.value = .flag true ∨ ∃ t, a.value = .text t

namespace Script

theorem arg?_written {segment : List Char} {a : Arg} (h : arg? segment = some a) : a.Written := by
  simp only [arg?] at h
  split at h
  · split at h
    · exact .inl ⟨_, by rw [← Option.some.inj h]⟩
    · simp at h
  · split at h
    · exact .inr (.inl (by rw [← Option.some.inj h]))
    · simp at h

theorem splitArgs_written (body : List Char) : ∀ a ∈ (splitArgs body).2, a.Written := by
  intro a ha
  unfold splitArgs at ha
  split at ha
  · simp at ha
  · obtain ⟨segment, -, hs⟩ := List.mem_filterMap.mp ha
    exact arg?_written hs

theorem resolve_written (statement : List Char) :
    ∀ a ∈ (resolve statement).2.2.2, a.Written := by
  intro a ha
  unfold resolve at ha
  split at ha
  · rename_i head body _
    have hbody := splitArgs_written body
    simp only at ha
    split at ha
    · exact hbody a ha
    · rcases List.mem_append.mp ha with ha | ha
      · split at ha
        · simp at ha
        · rw [List.mem_singleton] at ha
          exact .inr (.inr ⟨_, by rw [ha]⟩)
      · exact hbody a ha
  · simp only at ha
    split at ha
    · exact splitArgs_written _ a ha
    · exact splitArgs_written _ a ha

theorem mem_of_mem_settleSpeaker {args : List Arg} {a : Arg} (h : a ∈ settleSpeaker args) :
    a ∈ args := by
  unfold settleSpeaker at h
  simp only at h
  split at h
  · rename_i speaker hs
    rcases List.mem_cons.mp h with rfl | h
    · exact (List.mem_filter.mp (List.mem_of_getLast? hs)).1
    · exact (List.mem_filter.mp h).1
  · exact h

theorem parseLine_cases (base : List Char) (number : Nat) (line : List Char) :
    (∃ content, parseLine base number line = ⟨.comment, "", content, [], [], []⟩) ∨
    ∃ command raw content args, (∀ a ∈ args, a.Written) ∧
      parseLine base number line = sentence base number command raw content args := by
  unfold parseLine
  simp only
  split
  · exact .inl ⟨_, rfl⟩
  · have hwritten := resolve_written (trim (cutComment line).1)
    refine .inr ⟨_, _, _, _, fun a ha => ?_, rfl⟩
    split at ha
    · exact hwritten a (mem_of_mem_settleSpeaker ha)
    · exact hwritten a ha

theorem parseLine_written {base : List Char} {number : Nat} {line : List Char} :
    ∀ a ∈ (parseLine base number line).args, a.Written := by
  obtain ⟨content, h⟩ | ⟨command, raw, content, args, hw, h⟩ := parseLine_cases base number line
  · simp [h]
  · rw [h]
    exact hw

theorem parseLine_lineNumber {base : List Char} {number : Nat} {line : List Char} :
    ∀ a ∈ (parseLine base number line).assets, a.lineNumber = number := by
  obtain ⟨content, h⟩ | ⟨command, raw, content, args, hw, h⟩ := parseLine_cases base number line
  · simp [h]
  · rw [h]
    intro a ha
    simp only [sentence, List.mem_map] at ha
    obtain ⟨⟨kind, name⟩, -, rfl⟩ := ha
    rfl

theorem mem_parseLines {base : List Char} {number : Nat} {ls : List (List Char)} {x : Sentence}
    (h : x ∈ parseLines base number ls) :
    ∃ i line, i < ls.length ∧ x = parseLine base (number + i) line := by
  induction ls generalizing number with
  | nil => simp [parseLines] at h
  | cons l ls ih =>
    rcases List.mem_cons.mp h with rfl | h
    · exact ⟨0, _, by simp, rfl⟩
    · obtain ⟨i, line, hi, rfl⟩ := ih h
      exact ⟨i + 1, line, by simpa using hi, by rw [Nat.add_assoc, Nat.add_comm 1]⟩

end Script

theorem Arg.Written.number_cases {a : Arg} (h : a.Written) {n : JsonNumber}
    (hn : a.value = .number n) :
    (∃ k : Int, n = .whole k ∧ -(twoTo 63 : Int) ≤ k ∧ k ≤ twoTo 63 - 1) ∨
      ∃ x, n = .real x := by
  obtain ⟨raw, h⟩ | h | ⟨t, h⟩ := h
  · rw [hn] at h
    unfold ArgValue.ofRaw at h
    split at h
    · simp at h
    · split at h
      · simp at h
      · split at h
        · rename_i k hk
          simp only [ArgValue.number.injEq] at h
          have hr := Option.filter_eq_some_iff.mp hk
          simp only [Bool.and_eq_true, decide_eq_true_eq] at hr
          exact .inl ⟨k, h, hr.2⟩
        · split at h
          · rename_i x _
            exact .inr ⟨x, ArgValue.number.inj h⟩
          · simp at h
  · simp [hn] at h
  · simp [hn] at h

end SceneScript
