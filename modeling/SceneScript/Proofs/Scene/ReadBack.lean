import SceneScript.Proofs.Scene.Written
import SceneScript.Scene.Decode

namespace SceneScript

namespace Decoder

theorem list_map {α : Type} {item : Decoder α} {f : α → Json} {xs : List α}
    (h : ∀ x ∈ xs, item (f x) = .ok x) : list item (.array (xs.map f)) = .ok xs := by
  simp only [list]
  induction xs with
  | nil => rfl
  | cons x xs ih =>
    have hx := h x List.mem_cons_self
    have hxs := ih fun y hy => h y (List.mem_cons_of_mem x hy)
    simp [hx, hxs, bind, Except.bind, pure, Except.pure]

theorem list_strings (xs : List String) : list string (.array (xs.map .string)) = .ok xs :=
  list_map fun _ _ => rfl

theorem word_nat {n : Nat} (h : n < twoTo 64) : word (.nat n) = .ok n := by
  simp [word, natural, Json.nat, h]

theorem check_ok {α : Type} {d : Decoder α} {v : Json} {a : α} (h : d v = .ok a) :
    check d v = .ok () := by
  simp [check, h, Except.map]

@[simp]
theorem check_string (s : String) : check string (.string s) = .ok () := rfl

end Decoder

theorem Command.decode_code (c : Command) : decode (.nat c.code) = .ok c := by
  cases c <;> rfl

theorem AssetKind.decode_code (k : AssetKind) : decode (.nat k.code) = .ok k := by
  cases k <;> rfl

theorem ArgValue.decode_toJson (v : ArgValue) : decode v.toJson = .ok v := by
  cases v <;> rfl

namespace Shape

theorem opened_object {s : Shape} {members : List (String × Json)}
    (h : ∀ m ∈ members, ∀ read, s.fields.lookup m.1 = some read → read m.2 = .ok ()) :
    s.opened (.object members) = .ok () := by
  simp only [opened, List.forM_eq_forM]
  induction members with
  | nil => rfl
  | cons m members ih =>
    have hmembers := ih fun x hx => h x (List.mem_cons_of_mem m hx)
    rw [List.forM_cons, hmembers]
    cases hread : s.fields.lookup m.1 with
    | none => rfl
    | some read =>
      have hm := h m List.mem_cons_self read hread
      simp only [hm]
      rfl

end Shape

theorem Arg.decode_toJson (a : Arg) : decode a.toJson = .ok a := by
  have hopened : shape.opened a.toJson = .ok () := by
    refine Shape.opened_object ?_
    simp [List.lookup_cons, shape, Decoder.check_ok a.value.decode_toJson]
  have hkey : shape.field 0 .string a.toJson = .ok a.key := rfl
  have hvalue : shape.field 1 ArgValue.decode a.toJson = .ok a.value := a.value.decode_toJson
  have hclosed : shape.closed a.toJson = .ok () := rfl
  simp only [decode, hopened, hkey, hvalue, hclosed]
  rfl

theorem Asset.decode_toJson {a : Asset} (h : a.lineNumber < twoTo 64) :
    decode a.toJson = .ok a := by
  have hword := Decoder.word_nat h
  have hopened : shape.opened a.toJson = .ok () := by
    refine Shape.opened_object ?_
    simp [List.lookup_cons, shape, Decoder.check_ok hword, Decoder.check_ok a.kind.decode_code]
  have hname : shape.field 0 .string a.toJson = .ok a.name := rfl
  have hkind : shape.field 1 AssetKind.decode a.toJson = .ok a.kind := a.kind.decode_code
  have hurl : shape.field 2 .string a.toJson = .ok a.url := rfl
  have hline : shape.field 3 .word a.toJson = .ok a.lineNumber := hword
  have hclosed : shape.closed a.toJson = .ok () := rfl
  simp only [decode, hopened, hname, hkind, hurl, hline, hclosed]
  rfl

theorem Sentence.decode_toJson {s : Sentence} (h : ∀ a ∈ s.assets, a.lineNumber < twoTo 64) :
    decode s.toJson = .ok s := by
  have hargs : Decoder.list Arg.decode (.array (s.args.map Arg.toJson)) = .ok s.args :=
    Decoder.list_map fun a _ => a.decode_toJson
  have hassets : Decoder.list Asset.decode (.array (s.assets.map Asset.toJson)) = .ok s.assets :=
    Decoder.list_map fun a ha => Asset.decode_toJson (h a ha)
  have hscenes := Decoder.list_strings s.subScenes
  have hopened : shape.opened s.toJson = .ok () := by
    refine Shape.opened_object ?_
    simp [List.lookup_cons, shape, Decoder.check_ok s.command.decode_code, Decoder.check_ok hargs,
      Decoder.check_ok hassets, Decoder.check_ok hscenes]
  have hcommand : shape.field 0 Command.decode s.toJson = .ok s.command := s.command.decode_code
  have hraw : shape.field 1 .string s.toJson = .ok s.commandRaw := rfl
  have hcontent : shape.field 2 .string s.toJson = .ok s.content := rfl
  have hargs : shape.field 3 (.list Arg.decode) s.toJson = .ok s.args := hargs
  have hassets : shape.field 4 (.list Asset.decode) s.toJson = .ok s.assets := hassets
  have hscenes : shape.field 5 (.list .string) s.toJson = .ok s.subScenes := hscenes
  have hclosed : shape.closed s.toJson = .ok () := rfl
  simp only [decode, hopened, hcommand, hraw, hcontent, hargs, hassets, hscenes, hclosed]
  rfl

theorem Scene.decode_toJson {s : Scene}
    (hs : ∀ x ∈ s.sentences, ∀ a ∈ x.assets, a.lineNumber < twoTo 64)
    (ha : ∀ a ∈ s.assets, a.lineNumber < twoTo 64) : decode s.toJson = .ok s := by
  have hsentences : Decoder.list Sentence.decode (.array (s.sentences.map Sentence.toJson)) =
      .ok s.sentences :=
    Decoder.list_map fun x hx => Sentence.decode_toJson (hs x hx)
  have hassets : Decoder.list Asset.decode (.array (s.assets.map Asset.toJson)) = .ok s.assets :=
    Decoder.list_map fun a h => Asset.decode_toJson (ha a h)
  have hscenes := Decoder.list_strings s.subScenes
  have hopened : shape.opened s.toJson = .ok () := by
    refine Shape.opened_object ?_
    simp [List.lookup_cons, shape, Decoder.check_ok hsentences, Decoder.check_ok hassets,
      Decoder.check_ok hscenes]
  have hname : shape.field 0 .string s.toJson = .ok s.name := rfl
  have hurl : shape.field 1 .string s.toJson = .ok s.url := rfl
  have hsentences : shape.field 2 (.list Sentence.decode) s.toJson = .ok s.sentences := hsentences
  have hassets : shape.field 3 (.list Asset.decode) s.toJson = .ok s.assets := hassets
  have hscenes : shape.field 4 (.list .string) s.toJson = .ok s.subScenes := hscenes
  have hclosed : shape.closed s.toJson = .ok () := rfl
  simp only [decode, hopened, hname, hurl, hsentences, hassets, hscenes, hclosed]
  rfl

theorem JsonNumber.Faithful.lt_twoTo {n : Nat} (h : Faithful (.whole n)) : n < twoTo 64 := by
  obtain ⟨k, hk, -, hle⟩ := h
  obtain rfl : (n : Int) = k := JsonNumber.whole.inj hk
  have hpos : 0 < twoTo 64 := by decide
  have hn : n ≤ Json.greatestSignificand := Int.ofNat_le.mp hle
  exact Nat.lt_of_le_of_lt hn (Nat.sub_lt hpos (by decide))

/-- A scene whose numbers are whole numbers of 64 bits is read back from its pretty form. -/
theorem Scene.decode_read_pretty {s : Scene}
    (hs : ∀ x ∈ s.sentences, x.Counts JsonNumber.Faithful)
    (ha : ∀ a ∈ s.assets, JsonNumber.Faithful (.whole a.lineNumber)) :
    (Json.read? s.toJson.pretty).map decode = some (.ok s) := by
  have hcode : ∀ n < 64, JsonNumber.Faithful (.whole (n : Nat)) := fun n hn =>
    ⟨n, rfl, (by decide : ∀ n < 64, Json.InWord (n : Nat)) n hn⟩
  have hdepth : Json.nesting s.toJson ≤ Json.greatestDepth :=
    Nat.le_trans s.nesting_toJson (by decide)
  have hread := Json.read?_pretty_of_faithful (regular_toJson hcode hs ha) hdepth
  have hdecode : decode s.toJson = .ok s :=
    decode_toJson (fun x hx a h => ((hs x hx).assets a h).lt_twoTo) fun a h => (ha a h).lt_twoTo
  rw [hread, Option.map_some, hdecode]

def extremeScene : Scene where
  name := "a\"b\\"
  url := "\x00\n"
  sentences := [⟨.choose, "", "é\t\x7d", [⟨"k", .number (.whole 18446744073709551615)⟩,
    ⟨"k", .number (.whole (-9223372036854775808))⟩, ⟨"", .text "true"⟩, ⟨"next", .flag true⟩],
    [⟨"x.txt", .scene, "", 18446744073709551615⟩], ["x.txt", "x.txt"]⟩]
  assets := [⟨"none", .tex, "\x7f", 0⟩]
  subScenes := ["commandRaw"]

theorem Scene.decode_read_pretty_extreme :
    (Json.read? extremeScene.toJson.pretty).map decode = some (.ok extremeScene) := by
  refine decode_read_pretty ?_ ?_
  · intro x hx
    obtain rfl := List.mem_singleton.mp hx
    refine ⟨fun a ha n hn => ?_, fun a ha => ?_⟩
    · simp only [List.mem_cons, List.not_mem_nil, or_false] at ha
      rcases ha with rfl | rfl | rfl | rfl
      · exact ⟨_, (ArgValue.number.inj hn).symm, by decide⟩
      · exact ⟨_, (ArgValue.number.inj hn).symm, by decide⟩
      · simp at hn
      · simp at hn
    · obtain rfl := List.mem_singleton.mp ha
      exact ⟨_, rfl, by decide⟩
  · intro a ha
    obtain rfl := List.mem_singleton.mp ha
    exact ⟨_, rfl, by decide⟩

end SceneScript
