/-
  Snapshots come back from their texts. A text need not be the one that `Snapshot.text` writes: the
  members of each object may stand in any order, members with other names may stand among them, and
  there may be blanks between the tokens (`Json.Variant`, `Json.Spaced`). Reading such a text gives
  the snapshot all the same, whatever its values (`Snapshot.parse?_text`).

  For each object this rests on one fact about records: the fields of a variant, taken by name, are
  variants of the fields (`fields?_variant`). The rest is that every decoder undoes its encoder
  (`Decodes`), object by object from the inside out.
-/
import Mc6809.Proofs.Parse
import Mc6809.Snapshot.Text

namespace Mc6809

namespace Json

/-! ## Variants -/

/-- A value without parts that is no number with a fraction or an exponent. -/
inductive Scalar : Json → Prop where
  | null : Scalar .null
  | bool (value : Bool) : Scalar (.bool value)
  | natural (value : Nat) : Scalar (.natural value)
  | negative (value : Nat) : Scalar (.number ("-" ++ toString value))
  | string (text : String) : Scalar (.string (some text))

mutual

/-- The second value says the same as the first to a reader that looks members up by name: in each
object the members stand in any order, and there may be more of them, with names that the object
does not have and values without parts. -/
inductive Variant : Json → Json → Prop where
  | same (json : Json) : Variant json json
  | record {members changed added result : List (String × Json)} :
      Variants members changed →
      (∀ member ∈ added, member.1 ∉ members.map Prod.fst ∧ member.2.Scalar) →
      result.Perm (changed ++ added) →
      Variant (.record members) (.record result)

/-- Members of the same names, one after the other, with variants of their values. -/
inductive Variants : List (String × Json) → List (String × Json) → Prop where
  | nil : Variants [] []
  | cons {name : String} {value changed : Json} {members rest : List (String × Json)} :
      Variant value changed → Variants members rest →
      Variants ((name, value) :: members) ((name, changed) :: rest)

end

variable {json other : Json} {members changed : List (String × Json)}

theorem Variants.same (members : List (String × Json)) : Variants members members := by
  induction members with
  | nil => exact .nil
  | cons member members ih => exact .cons (.same member.2) ih

theorem record_inj (h : record members = record changed) : members = changed := by
  have hinj : Function.Injective fun member : String × Json => (some member.1, member.2) := by
    rintro ⟨_, _⟩ ⟨_, _⟩ heq
    simpa using heq
  exact List.map_injective_iff.mpr hinj (object.inj h)

/-- A variant of an object is an object. -/
theorem Variant.of_record (h : Variant (.record members) json) :
    ∃ changed added result, json = .record result ∧ Variants members changed ∧
      (∀ member ∈ added, member.1 ∉ members.map Prod.fst ∧ member.2.Scalar) ∧
      result.Perm (changed ++ added) := by
  generalize hrecord : Json.record members = written at h
  cases h with
  | same =>
    refine ⟨members, [], members, hrecord.symm, .same members, nofun, ?_⟩
    rw [List.append_nil]
  | record hvariants hadded hperm =>
    obtain rfl := record_inj hrecord
    exact ⟨_, _, _, rfl, hvariants, hadded, hperm⟩

/-- Nothing but objects has other variants than itself. -/
theorem Variant.eq_of_scalar (hscalar : json.Scalar) (h : Variant json other) : other = json := by
  generalize hwritten : json = written at h
  cases h with
  | same => rfl
  | record =>
    subst hwritten
    cases hscalar

/-! ## Writing variants -/

/-- Every token of the value can be written. -/
def Proper (json : Json) : Prop := ∀ token ∈ json.tokens, token.Proper

theorem Scalar.proper (h : json.Scalar) : json.Proper := by
  cases h <;> simp [Proper, tokens, Token.Proper]

@[simp] theorem proper_bool (value : Bool) : (bool value).Proper := (Scalar.bool value).proper

@[simp] theorem proper_natural (value : Nat) : (natural value).Proper :=
  (Scalar.natural value).proper

theorem proper_memberTokens (members : List (Option String × Json)) :
    (∀ token ∈ memberTokens members, token.Proper) ↔ ∀ member ∈ members, member.2.Proper := by
  induction members with
  | nil => simp [memberTokens, Token.Proper]
  | cons member members ih =>
    obtain ⟨name, value⟩ := member
    cases members with
    | nil => simp [memberTokens, Proper, Token.Proper, or_imp, forall_and]
    | cons next members =>
      have hname : (Token.string name).Proper := trivial
      have hcolon : Token.colon.Proper := trivial
      have hcomma : Token.comma.Proper := trivial
      simp only [memberTokens_cons, List.cons_append, List.forall_mem_append, List.forall_mem_cons,
        hname, hcolon, hcomma, true_and, ih]
      exact Iff.rfl

/-- An object can be written if its members can. -/
theorem proper_record : (record members).Proper ↔ ∀ member ∈ members, member.2.Proper := by
  unfold record
  rw [Proper, tokens, List.forall_mem_cons, proper_memberTokens, List.forall_mem_map]
  exact and_iff_right trivial

mutual

theorem Variant.proper {json other : Json} (h : Variant json other) (hjson : json.Proper) :
    other.Proper := by
  match h with
  | .same _ => exact hjson
  | .record hvariants hadded hperm =>
    rw [proper_record] at hjson ⊢
    intro member hmem
    obtain hchanged | hextra := List.mem_append.mp (hperm.mem_iff.mp hmem)
    · exact Variants.proper hvariants hjson member hchanged
    · exact (hadded member hextra).2.proper

theorem Variants.proper {members changed : List (String × Json)} (h : Variants members changed)
    (hmembers : ∀ member ∈ members, member.2.Proper) : ∀ member ∈ changed, member.2.Proper := by
  match h with
  | .nil => exact nofun
  | .cons hvalue hrest =>
    rw [List.forall_mem_cons] at hmembers ⊢
    exact ⟨Variant.proper hvalue hmembers.1, Variants.proper hrest hmembers.2⟩

end

/-! ## Fields of a variant -/

theorem Variants.exists_zip {names : List String} {values : List Json}
    (hlength : names.length = values.length) (h : Variants (names.zip values) changed) :
    ∃ others, changed = names.zip others ∧ names.length = others.length ∧
      List.Forall₂ Variant values others := by
  induction names generalizing values changed with
  | nil =>
    obtain rfl : values = [] := List.length_eq_zero_iff.mp hlength.symm
    cases h
    exact ⟨[], rfl, rfl, .nil⟩
  | cons name names ih =>
    obtain _ | ⟨value, values⟩ := values
    · cases hlength
    · cases h with
      | cons hvalue hrest =>
        obtain ⟨others, rfl, hcount, hothers⟩ := ih (Nat.succ.inj hlength) hrest
        exact ⟨_ :: others, rfl, congrArg Nat.succ hcount, .cons hvalue hothers⟩

theorem filter_of_nodup {name : String} {value : Json} (hnodup : (members.map Prod.fst).Nodup)
    (hmem : (name, value) ∈ members) : members.filter (·.1 = name) = [(name, value)] := by
  induction members with
  | nil => cases hmem
  | cons member members ih =>
    rw [List.map_cons, List.nodup_cons] at hnodup
    obtain ⟨hfresh, hnodup⟩ := hnodup
    obtain rfl | hmem := List.mem_cons.mp hmem
    · have hnone : members.filter (·.1 = name) = [] := by
        refine List.filter_eq_nil_iff.mpr fun other hother heq => hfresh ?_
        exact List.mem_map.mpr ⟨other, hother, of_decide_eq_true heq⟩
      rw [List.filter_cons_of_pos (by simp), hnone]
    · have hne : member.1 ≠ name := fun heq =>
        hfresh (heq ▸ List.mem_map_of_mem (f := Prod.fst) hmem)
      rw [List.filter_cons_of_neg (by simpa using hne)]
      exact ih hnodup hmem

/-- A member whose name does not occur again is found by its name, wherever it stands. -/
theorem unique?_of_mem {name : String} {value : Json} {added result : List (String × Json)}
    (hperm : result.Perm (members ++ added)) (hnodup : (members.map Prod.fst).Nodup)
    (hadded : ∀ member ∈ added, member.1 ≠ name) (hmem : (name, value) ∈ members) :
    unique? result name = some value := by
  have hfound : members.filter (·.1 = name) = [(name, value)] := filter_of_nodup hnodup hmem
  have hnone : added.filter (·.1 = name) = [] :=
    List.filter_eq_nil_iff.mpr fun member hmem => by simpa using hadded member hmem
  have hfiltered := hperm.filter (·.1 = name)
  rw [List.filter_append, hfound, hnone, List.append_nil, List.perm_singleton] at hfiltered
  unfold unique?
  rw [hfiltered]

theorem mapM_of_zip {names : List String} {values : List Json} {find? : String → Option Json}
    (hlength : names.length = values.length)
    (h : ∀ member ∈ names.zip values, find? member.1 = some member.2) :
    names.mapM find? = some values := by
  induction names generalizing values with
  | nil =>
    obtain rfl : values = [] := List.length_eq_zero_iff.mp hlength.symm
    rfl
  | cons name names ih =>
    obtain _ | ⟨value, values⟩ := values
    · cases hlength
    · rw [List.zip_cons_cons, List.forall_mem_cons] at h
      rw [List.mapM_cons, h.1, ih (Nat.succ.inj hlength) h.2]
      rfl

theorem fields?_record (names : List String) :
    (record members).fields? names = names.mapM (unique? members) := by
  have hnamed : (members.map fun member => (some member.1, member.2)).mapM
      (fun member => member.1.map (·, member.2)) = some members := by
    induction members with
    | nil => rfl
    | cons member members ih =>
      rw [List.map_cons, List.mapM_cons, ih]
      rfl
  rw [record, fields?, hnamed]
  rfl

/-- **The fields of a variant are variants of the fields.** -/
theorem fields?_variant {names : List String} {values : List Json} (hnodup : names.Nodup)
    (hlength : names.length = values.length) (h : Variant (.record (names.zip values)) json) :
    ∃ others, List.Forall₂ Variant values others ∧ json.fields? names = some others := by
  obtain ⟨changed, added, result, rfl, hvariants, hadded, hperm⟩ := h.of_record
  obtain ⟨others, rfl, hcount, hothers⟩ := hvariants.exists_zip hlength
  refine ⟨others, hothers, ?_⟩
  rw [fields?_record]
  refine mapM_of_zip hcount fun member hmem => ?_
  have hnames : (names.zip others).map Prod.fst = names := List.map_fst_zip (Nat.le_of_eq hcount)
  refine unique?_of_mem hperm (hnames.symm ▸ hnodup) (fun extra hextra heq => ?_) hmem
  have hknown : member.1 ∈ (names.zip values).map Prod.fst := by
    rw [List.map_fst_zip (Nat.le_of_eq hlength)]
    exact (List.of_mem_zip hmem).1
  exact (hadded extra hextra).1 (heq ▸ hknown)

/-! ## Decoders -/

/-- Every variant of the value is decoded as this. -/
def Decodes {α : Type} (decode? : Json → Option α) (json : Json) (a : α) : Prop :=
  ∀ {other}, Variant json other → decode? other = some a

theorem decodes_bool (value : Bool) : Decodes bool? (.bool value) value := by
  intro other h
  obtain rfl := h.eq_of_scalar (.bool value)
  rfl

theorem below?_natural {limit value : Nat} (h : value < limit) :
    (Json.natural value).below? limit = some value := if_pos h

theorem decodes_uint8 (value : UInt8) : Decodes uint8? (.natural value.toNat) value := by
  intro other h
  obtain rfl := h.eq_of_scalar (.natural value.toNat)
  rw [uint8?, below?_natural value.toNat_lt]
  exact congrArg some UInt8.ofNat_toNat

theorem decodes_uint16 (value : UInt16) : Decodes uint16? (.natural value.toNat) value := by
  intro other h
  obtain rfl := h.eq_of_scalar (.natural value.toNat)
  rw [uint16?, below?_natural value.toNat_lt]
  exact congrArg some UInt16.ofNat_toNat

theorem decodes_uint64 (value : UInt64) : Decodes uint64? (.natural value.toNat) value := by
  intro other h
  obtain rfl := h.eq_of_scalar (.natural value.toNat)
  rw [uint64?, below?_natural value.toNat_lt]
  exact congrArg some UInt64.ofNat_toNat

end Json

open Json

theorem Flags.decodes (flags : Flags) : Decodes Flags.ofJson? flags.toJson flags := by
  intro json h
  obtain ⟨values, hvalues, hfields⟩ := fields?_variant (by decide) rfl h
  rcases hvalues with _ | ⟨hcarry, _ | ⟨hoverflow, _ | ⟨hzero, _ | ⟨hnegative, _ | ⟨hirqMask,
    _ | ⟨hhalfCarry, _ | ⟨hfirqMask, _ | ⟨hentire, _ | _⟩⟩⟩⟩⟩⟩⟩⟩
  rw [ofJson?, hfields]
  simp only [decodes_bool _ hcarry, decodes_bool _ hoverflow, decodes_bool _ hzero,
    decodes_bool _ hnegative, decodes_bool _ hirqMask, decodes_bool _ hhalfCarry,
    decodes_bool _ hfirqMask, decodes_bool _ hentire]
  rfl

theorem Registers.decodes (regs : Registers) : Decodes Registers.ofJson? regs.toJson regs := by
  intro json h
  obtain ⟨values, hvalues, hfields⟩ := fields?_variant (by decide) rfl h
  rcases hvalues with _ | ⟨ha, _ | ⟨hb, _ | ⟨hdp, _ | ⟨hx, _ | ⟨hy, _ | ⟨hu, _ | ⟨hs, _ | ⟨hpc,
    _ | ⟨hcc, _ | _⟩⟩⟩⟩⟩⟩⟩⟩⟩
  rw [ofJson?, hfields]
  simp only [decodes_uint8 _ ha, decodes_uint8 _ hb, decodes_uint8 _ hdp, decodes_uint16 _ hx,
    decodes_uint16 _ hy, decodes_uint16 _ hu, decodes_uint16 _ hs, decodes_uint16 _ hpc,
    regs.cc.decodes hcc]
  rfl

theorem InterruptLines.decodes (lines : InterruptLines) :
    Decodes InterruptLines.ofJson? lines.toJson lines := by
  intro json h
  obtain ⟨values, hvalues, hfields⟩ := fields?_variant (by decide) rfl h
  rcases hvalues with _ | ⟨hnmi, _ | ⟨hfirq, _ | ⟨hirq, _ | _⟩⟩⟩
  rw [ofJson?, hfields]
  simp only [decodes_bool _ hnmi, decodes_bool _ hfirq, decodes_bool _ hirq]
  rfl

namespace Snapshot

theorem decodes (snapshot : Snapshot) : Decodes Snapshot.ofJson? snapshot.toJson snapshot := by
  intro json h
  obtain ⟨values, hvalues, hfields⟩ := fields?_variant (by decide) rfl h
  rcases hvalues with _ | ⟨hregisters, _ | ⟨hclock, _ | ⟨hlines, _ | ⟨hnmiArmed, _ | ⟨hcwai,
    _ | ⟨hsync, _ | _⟩⟩⟩⟩⟩⟩
  rw [ofJson?, hfields]
  simp only [snapshot.registers.decodes hregisters, decodes_uint64 _ hclock,
    snapshot.lines.decodes hlines, decodes_bool _ hnmiArmed, decodes_bool _ hcwai,
    decodes_bool _ hsync]
  rfl

/-! ## Texts of snapshots -/

theorem proper_toJson (snapshot : Snapshot) : snapshot.toJson.Proper := by
  have hflags : snapshot.registers.cc.toJson.Proper := by
    simp [Flags.toJson, Flags.fieldNames, proper_record]
  have hregisters : snapshot.registers.toJson.Proper := by
    simp [Registers.toJson, Registers.fieldNames, proper_record, hflags]
  have hlines : snapshot.lines.toJson.Proper := by
    simp [InterruptLines.toJson, InterruptLines.fieldNames, proper_record]
  simp [toJson, fieldNames, proper_record, hregisters, hlines]

/-- **A snapshot comes back from its text**, whatever its registers, flags, clock, lines and
latches: from the one that is written for it, and from every other one in which the members of each
object stand in another order, members with other names stand among them, or blanks stand between
the tokens. -/
theorem parse?_text (snapshot : Snapshot) :
    parse? snapshot.text = some snapshot ∧
      ∀ json text, snapshot.toJson.Variant json → Spaced json.tokens text.toList →
        parse? text = some snapshot := by
  have hparse (json : Json) (text : String) (hvariant : snapshot.toJson.Variant json)
      (hspaced : Spaced json.tokens text.toList) : parse? text = some snapshot := by
    have hproper : json.Proper := hvariant.proper snapshot.proper_toJson
    unfold parse?
    rw [parse?_of_spaced hproper hspaced]
    exact snapshot.decodes hvariant
  exact ⟨hparse _ _ (.same _) (spaced_text _), hparse⟩

/-- The latest possible clock, IRQ asserted, and the zero flag set. -/
def full : Snapshot where
  registers := { a := 0xFF, pc := 0xFFFE, cc := { zero := true } }
  clock := 0xFFFFFFFFFFFFFFFF
  lines := { irq := true }

/-- The lines of `full` the other way round, with a number before them. -/
def fullLines : Json := .record (InterruptLines.fieldNames.zip
  [Json.bool false, .bool false, .bool true] ++ [("revision", Json.number "-3")]).reverse

/-- The fields of `full` the other way round, with a text before them and with these lines. -/
def fullVariant : Json := .record (fieldNames.zip [full.registers.toJson,
  .natural 0xFFFFFFFFFFFFFFFF, fullLines, .bool false, .bool false, .bool false] ++
    [("note", Json.string (some "kept"))]).reverse

theorem variant_full : full.toJson.Variant fullVariant := by
  have hrevision : ∀ member ∈ [("revision", Json.number "-3")],
      member.1 ∉ InterruptLines.fieldNames ∧ member.2.Scalar :=
    List.forall_mem_singleton.mpr ⟨by decide, .negative 3⟩
  have hnote : ∀ member ∈ [("note", Json.string (some "kept"))],
      member.1 ∉ fieldNames ∧ member.2.Scalar :=
    List.forall_mem_singleton.mpr ⟨by decide, .string "kept"⟩
  have hlines : full.lines.toJson.Variant fullLines :=
    .record (.same _) hrevision (List.reverse_perm _)
  exact .record (.cons (.same _) (.cons (.same _) (.cons hlines (.same _)))) hnote
    (List.reverse_perm _)

/-- Neither the order of the fields matters, nor the note, nor a line feed after each token. -/
theorem parse?_text_full :
    parse? (String.ofList (fullVariant.tokens.flatMap fun token => token.text.toList ++ ['\n'])) =
      some full := by
  refine (parse?_text full).2 fullVariant _ variant_full ?_
  rw [String.toList_ofList]
  exact spaced_flatMap _ (List.forall_mem_singleton.mpr rfl)

end Snapshot

end Mc6809
