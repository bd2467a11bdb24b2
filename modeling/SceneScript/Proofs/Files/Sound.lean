import Mathlib.Data.List.Induction
import SceneScript.Proofs.Files.ReadBack

namespace SceneScript

namespace Directory

/-- The working folder is one, and so is whatever an entry stands in. -/
structure Sound (d : Directory) : Prop where
  home : d.entry? d.home = some .folder
  above : ∀ place name, d.entry? (place ++ [name]) ≠ none → d.entry? place = some .folder

end Directory

structure Tree extends Directory where
  sound : toDirectory.Sound

namespace Tree

def root : Tree where
  toDirectory := Directory.bare []
  sound.home := rfl
  sound.above place name h := by
    cases place <;> exact absurd rfl h

variable (t : Tree)

theorem entry?_start (p : Path) : t.entry? (t.start p) = some .folder := by
  unfold Directory.start
  split
  · rfl
  · exact t.sound.home

variable {t}

theorem dropLast {place : Place} (hplace : t.entry? place = some .folder) :
    t.entry? place.dropLast = some .folder := by
  by_cases hne : place = []
  · rw [hne]
    rfl
  · rw [← List.dropLast_concat_getLast hne] at hplace
    have hne' : t.entry? (place.dropLast ++ [place.getLast hne]) ≠ none := by
      rw [hplace]
      simp
    exact t.sound.above _ _ hne'

theorem none_below {place : Place} (hplace : t.entry? place = none) (names : List String) :
    t.entry? (place ++ names) = none := by
  induction names using List.reverseRecOn with
  | nil => rw [List.append_nil, hplace]
  | append_singleton names name ih =>
    rw [← List.append_assoc]
    by_cases hnone : t.entry? (place ++ names ++ [name]) = none
    · exact hnone
    · simp [t.sound.above _ _ hnone] at ih

theorem sound_set {place : Place} {name : String} (entry : Entry)
    (hfolder : t.entry? place = some .folder) (hnew : t.entry? (place ++ [name]) ≠ some .folder) :
    (t.set (place ++ [name]) entry).Sound := by
  have hne : place ++ [name] ≠ [] := by simp
  constructor
  · have hother : t.home ≠ place ++ [name] := by
      intro heq
      exact hnew (heq ▸ t.sound.home)
    rw [Directory.lookup_set hne]
    exact (if_neg hother).trans t.sound.home
  · intro q n hq
    rw [Directory.lookup_set hne] at hq ⊢
    by_cases hplace : q = place ++ [name]
    · -- What is no folder has nothing below it.
      subst hplace
      rw [if_neg (by simp)] at hq
      exact absurd (t.sound.above _ _ hq) hnew
    · rw [if_neg hplace]
      split at hq
      · rename_i heq
        obtain ⟨rfl, -⟩ := List.append_inj' heq rfl
        exact hfolder
      · exact t.sound.above q n hq

end Tree

namespace Directory

theorem walk_concat {d : Directory} {here there : Place} {steps : List Step} {last : Step}
    (h : d.walk here (steps ++ [last]) = .ok there) :
    ∃ folder, d.walk here steps = .ok folder ∧ d.entry? folder = some .folder ∧
      d.advance folder last = .ok there := by
  induction steps generalizing here with
  | nil =>
    obtain ⟨hfolder, next, hnext, hrest⟩ := walk_cons h
    obtain rfl : next = there := Except.ok.inj hrest
    exact ⟨here, rfl, hfolder, hnext⟩
  | cons step steps ih =>
    obtain ⟨hfolder, next, hnext, hrest⟩ := walk_cons h
    rw [walk_of_folder hfolder hnext]
    exact ih hrest

theorem advance_enter {d : Directory} {here next : Place} {name : String}
    (h : d.advance here (.enter name) = .ok next) :
    ¬greatestName < Text.byteLength name.toList ∧ (d.entry? (here ++ [name])).isSome ∧
      next = here ++ [name] := by
  simp only [advance] at h
  split at h
  · simp at h
  · rename_i hshort
    split at h
    · rename_i hsome
      exact ⟨hshort, hsome, (Except.ok.inj h).symm⟩
    · simp at h

theorem resolve_cases {t : Tree} {p : Path} {place : Place} (h : t.resolve p = .ok place)
    (hplace : t.entry? place ≠ some .folder) :
    ∃ name folder, p.fileName? = some name ∧ t.resolve p.parent = .ok folder ∧
      t.entry? folder = some .folder ∧ ¬greatestName < Text.byteLength name.toList ∧
      place = folder ++ [name] := by
  obtain ⟨absolute, steps, ending⟩ := p
  induction steps using List.reverseRecOn with
  | nil =>
    obtain rfl : t.start ⟨absolute, [], ending⟩ = place := Except.ok.inj h
    exact absurd (t.entry?_start _) hplace
  | append_singleton steps last =>
    obtain ⟨folder, hwalk, hfolder, hlast⟩ := walk_concat h
    cases last with
    | up =>
      obtain rfl : folder.dropLast = place := Except.ok.inj hlast
      exact absurd (Tree.dropLast hfolder) hplace
    | enter name =>
      obtain ⟨hshort, -, rfl⟩ := advance_enter hlast
      refine ⟨name, folder, by simp [Path.fileName?], ?_, hfolder, hshort, rfl⟩
      simp only [resolve, Path.parent, List.dropLast_concat]
      exact hwalk

theorem read_cases {d : Directory} {path s : String} (h : d.read path = .ok s) :
    refused? path = none ∧ (Path.ofText path).ending = .name ∧
      ∃ place, d.resolve (Path.ofText path) = .ok place ∧
        d.entry? place = some (.file (.text s)) := by
  unfold read at h
  split at h
  · simp at h
  · rename_i hpath
    cases hplace : d.resolve (Path.ofText path) with
    | error e => simp [hplace, bind, Except.bind] at h
    | ok place =>
      simp only [hplace, bind, Except.bind] at h
      split at h
      · rename_i content hcontent
        split at h
        · simp at h
        · rename_i hending
          split at h
          · rename_i s'
            obtain rfl : s' = s := Except.ok.inj h
            exact ⟨hpath, by simpa using hending, place, rfl, hcontent⟩
          · simp at h
      · simp at h
      · simp at h

end Directory
end SceneScript
