/-
  Reading inverts writing. The tokens of a value lead the reader from any place where a value may
  come to the place behind that value (`foldlM_tokens`), and in the tokens of a value nothing
  follows a number that could continue it (`isChain_tokens`). With `scan?_of_spaced`, every text
  that writes a value, with blanks or without, is read back to the value (`parse?_of_spaced`).
-/
import Mc6809.Proofs.Scan

namespace Mc6809.Json

/-! ## Tokens of a value -/

theorem itemTokens_cons (item next : Json) (items : List Json) :
    itemTokens (item :: next :: items) = item.tokens ++ .comma :: itemTokens (next :: items) := by
  rw [itemTokens]
  simp

theorem memberTokens_cons (name : Option String) (value : Json) (next : Option String × Json)
    (members : List (Option String × Json)) :
    memberTokens ((name, value) :: next :: members) =
      .string name :: .colon :: value.tokens ++ .comma :: memberTokens (next :: members) := by
  rw [memberTokens]
  simp

mutual

/-- Nothing in the tokens of a value continues a number. -/
theorem isChain_tokens (json : Json) {rest : List Token} (hrest : rest.IsChain Joins)
    (hends : ∀ token ∈ rest.head?, token.endsNumber) : (json.tokens ++ rest).IsChain Joins := by
  cases json with
  | array items => exact List.isChain_cons.mpr ⟨nofun, isChain_itemTokens items hrest⟩
  | object members => exact List.isChain_cons.mpr ⟨nofun, isChain_memberTokens members hrest⟩
  | _ => exact List.isChain_cons.mpr ⟨fun token hmem _ => hends token hmem, hrest⟩

theorem isChain_itemTokens (items : List Json) {rest : List Token} (hrest : rest.IsChain Joins) :
    (itemTokens items ++ rest).IsChain Joins := by
  match items with
  | [] => exact List.isChain_cons.mpr ⟨nofun, hrest⟩
  | [item] =>
    rw [itemTokens, List.append_assoc]
    exact isChain_tokens item (List.isChain_cons.mpr ⟨nofun, hrest⟩) (by rintro _ ⟨⟩; rfl)
  | item :: next :: items =>
    rw [itemTokens_cons, List.append_assoc]
    exact isChain_tokens item
      (List.isChain_cons.mpr ⟨nofun, isChain_itemTokens (next :: items) hrest⟩)
      (by rintro _ ⟨⟩; rfl)

theorem isChain_memberTokens (members : List (Option String × Json)) {rest : List Token}
    (hrest : rest.IsChain Joins) : (memberTokens members ++ rest).IsChain Joins := by
  match members with
  | [] => exact List.isChain_cons.mpr ⟨nofun, hrest⟩
  | [(name, value)] =>
    rw [memberTokens, List.append_assoc]
    refine List.isChain_cons.mpr ⟨nofun, List.isChain_cons.mpr ⟨nofun, ?_⟩⟩
    exact isChain_tokens value (List.isChain_cons.mpr ⟨nofun, hrest⟩) (by rintro _ ⟨⟩; rfl)
  | (name, value) :: next :: members =>
    rw [memberTokens_cons, List.append_assoc]
    refine List.isChain_cons.mpr ⟨nofun, List.isChain_cons.mpr ⟨nofun, ?_⟩⟩
    exact isChain_tokens value
      (List.isChain_cons.mpr ⟨nofun, isChain_memberTokens (next :: members) hrest⟩)
      (by rintro _ ⟨⟩; rfl)

end

/-! ## Reading tokens -/

/-- The first item of an array is read like any other. -/
theorem foldlM_firstItem (item : Json) (items : List Json) (frames : List Frame) :
    (itemTokens (item :: items)).foldlM State.next? (.firstItem frames) =
      (itemTokens (item :: items)).foldlM State.next? (.value (.array [] :: frames)) := by
  have hfirst (rest : List Token) : (item.tokens ++ rest).foldlM State.next? (.firstItem frames) =
      (item.tokens ++ rest).foldlM State.next? (.value (.array [] :: frames)) := by
    cases item <;> rfl
  cases items with
  | nil => exact hfirst _
  | cons next items =>
    rw [itemTokens_cons]
    exact hfirst _

/-- The first name of an object is read like any other. -/
theorem foldlM_firstName (member : Option String × Json)
    (members : List (Option String × Json)) (frames : List Frame) :
    (memberTokens (member :: members)).foldlM State.next? (.firstName frames) =
      (memberTokens (member :: members)).foldlM State.next? (.name frames []) := by
  cases members with
  | nil => rfl
  | cons next members =>
    rw [memberTokens_cons]
    rfl

mutual

/-- The tokens of a value lead to the place behind it. -/
theorem foldlM_tokens (json : Json) (frames : List Frame) :
    json.tokens.foldlM State.next? (.value frames) = some (.after frames json) := by
  cases json with
  | array items =>
    match items with
    | [] => rfl
    | item :: items =>
      exact (foldlM_firstItem item items frames).trans
        (foldlM_itemTokens (item :: items) nofun [] frames)
  | object members =>
    match members with
    | [] => rfl
    | member :: members =>
      exact (foldlM_firstName member members frames).trans
        (foldlM_memberTokens (member :: members) nofun [] frames)
  | _ => rfl

theorem foldlM_itemTokens (items : List Json) (hitems : items ≠ []) (done : List Json)
    (frames : List Frame) :
    (itemTokens items).foldlM State.next? (.value (.array done :: frames)) =
      some (.after frames (.array (done.reverse ++ items))) := by
  match items with
  | [item] =>
    rw [itemTokens, List.foldlM_append, foldlM_tokens item]
    simp [State.next?]
  | item :: next :: items =>
    rw [itemTokens_cons, List.foldlM_append, foldlM_tokens item]
    have hrest := foldlM_itemTokens (next :: items) nofun (item :: done) frames
    simpa [State.next?] using hrest

theorem foldlM_memberTokens (members : List (Option String × Json)) (hmembers : members ≠ [])
    (done : List (Option String × Json)) (frames : List Frame) :
    (memberTokens members).foldlM State.next? (.name frames done) =
      some (.after frames (.object (done.reverse ++ members))) := by
  match members with
  | [(name, value)] =>
    rw [memberTokens]
    simp [State.next?, List.foldlM_append, foldlM_tokens value]
  | (name, value) :: next :: members =>
    rw [memberTokens_cons]
    have hrest := foldlM_memberTokens (next :: members) nofun ((name, value) :: done) frames
    simpa [State.next?, List.foldlM_append, foldlM_tokens value] using hrest

end

/-- Every text that writes a value is read back to it. -/
theorem parse?_of_spaced {json : Json} (hproper : ∀ token ∈ json.tokens, token.Proper)
    {text : String} (h : Spaced json.tokens text.toList) : parse? text = some json := by
  have hjoins : json.tokens.IsChain Joins := by
    have hchain := json.isChain_tokens List.isChain_nil nofun
    rwa [List.append_nil] at hchain
  have hscanned : scan? text.toList = some json.tokens := scan?_of_spaced h hproper hjoins
  unfold parse?
  rw [hscanned, Option.bind_some, ofTokens?, json.foldlM_tokens []]

end Mc6809.Json
