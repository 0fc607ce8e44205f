import Protobuf.Proofs.Conformance.Json
import Protobuf.Proofs.Json.Nesting

/-! # What is present in messages

The two formats show the same fields of a message, in the same order, for the messages of any
well-formed schema, with a wardrobe of the suite as a case.

* `Message.formats_agree`: a message and all messages in it.
* `Cap.formats_disagree`: two fields with one JSON name.
-/

namespace Protobuf

variable {Ref : Type} {S : Schema Ref}

/-- The keys of the object of a message, and of that of each message in it that has one, are the JSON
    names of the fields that its bytes have records for, in ascending order of their numbers,
    exactly if no two of these names are one; if two are, each stands where it comes first.  An
    object is empty if and only if the bytes are, and those are if and only if every field is at
    its default.  The objects of the messages in it are part of the object where no type has
    two fields with one JSON name. -/
theorem Message.formats_agree (wf : S.WellFormed) (shaped : S.WellShaped) {r : Ref} {m : Message}
    {j : Json} (typed : HasType S r m) (fits : (encode S r m).Addressable)
    (h : toJson S r m = .ok j) :
    (∀ q inner, Within S r m q inner → (S q).shape = .object →
      ∃ i, toJson S q inner = .ok i ∧ Shows S q inner i ∧
        (Agrees S q inner i ↔ ∀ numbers, Record.numbers (encode S q inner) = (.ok (), numbers) →
          (numbers.dedup.map (S q).jsonName?).Nodup)) ∧
      ((∀ q, S.Reaches r q → (S q).HasDistinctJsonNames) →
        ∀ q inner, Within S r m q inner → (S q).shape = .object →
          ∃ i, toJson S q inner = .ok i ∧ i.PartOf j ∧ Agrees S q inner i) := by
  refine ⟨fun q inner within hshape => ?_, fun distinct q inner within hshape => ?_⟩
  · obtain ⟨i, hi, hshows, -, -⟩ := within.exists_json wf shaped typed fits h
    exact ⟨i, hi, hshows hshape, (hshows hshape).agrees_iff⟩
  · obtain ⟨i, hi, hshows, reach, hpart⟩ := within.exists_json wf shaped typed fits h
    exact ⟨i, hi, hpart distinct, (hshows hshape).agrees (distinct q reach)⟩

/-- A cap of two sizes has two records and one key. -/
theorem Cap.formats_disagree :
    Message.toJson capSizes () (capOf 6 7) = .ok (.object [("hatSize", .ofInt 7)]) ∧
      Record.numbers (Message.encode capSizes () (capOf 6 7)) = (.ok (), [1, 2]) ∧
      ([1, 2].map (capSizes ()).jsonName?) = [some "hatSize", some "hatSize"] ∧
      ¬Message.Agrees capSizes () (capOf 6 7) (.object [("hatSize", .ofInt 7)]) := by
  have hnumbers : Record.numbers (Message.encode capSizes () (capOf 6 7)) = (.ok (), [1, 2]) := by
    cbv
  refine ⟨toJson_capOf, hnumbers, by decide, ?_⟩
  rintro ⟨⟨members, numbers, hobject, hnumbers', -, hkeys⟩, -, -⟩
  cases hobject
  cases hnumbers.symm.trans hnumbers'
  exact absurd hkeys (by decide)

namespace TestMessage

def displayed : Json :=
  .object [("mannequin", .object [("inches", .number (.integer 2)), ("name", .string "felt")])]

theorem toJson_displaying :
    Message.toJson schema wardrobe (displaying (13, .message (feltHat 2 ""))) = .ok displayed := by
  cbv

theorem formats_agree_displaying :
    Message.Agrees schema wardrobe (displaying (13, .message (feltHat 2 ""))) displayed ∧
      ∃ i, Message.toJson schema hat (feltHat 2 "") = .ok i ∧ i.PartOf displayed ∧
        Message.Agrees schema hat (feltHat 2 "") i := by
  obtain ⟨-, hagree⟩ := Message.formats_agree wellFormed_schema wellShaped_schema
    (hasType_displaying_hat 2 "") addressable_displaying_hat toJson_displaying
  have hall := hagree fun q _ => (toldApart_schema q).hasDistinctJsonNames
  have hzip : ((schema wardrobe).slots.zip (displaying (13, .message (feltHat 2 ""))))[12]? =
      some (_, .oneof (some (13, .message (feltHat 2 "")))) := rfl
  constructor
  · obtain ⟨i, hi, -, hagrees⟩ := hall wardrobe _ (.self wardrobe _) rfl
    cases toJson_displaying.symm.trans hi
    exact hagrees
  · exact hall hat (feltHat 2 "") (.part (List.mem_of_getElem? hzip)
      (.member "display" (f := field "mannequin" 13 (.message hat)) _ (by simp)) (.self hat _)) rfl

end TestMessage

end Protobuf
