import RadioAdmin.Proofs.Json.Form
import RadioAdmin.Proofs.Value.Canonical
import RadioAdmin.Registry.Run
import RadioAdmin.Transaction.Stored

/-!
# Transactions that are stored and read

A transaction that is read from its own text is the transaction with all its values in canonical
form, but for one thing. A value of null before a change is stored as null, and so is the absence
of a known value, and null is read as the absence. So the change counts as one without a known
original from then on, and reverting the transaction leaves its slot alone.
-/
namespace RadioAdmin

def Value.isNull : Value → Bool
  | .null => true
  | _ => false

/-- An original value after it has been stored: null is lost. -/
def Value.original? (value : Option Value) : Option Value :=
  (value.map Value.canonical).filter fun stored => !stored.isNull

/-- A change after it has been stored. -/
def Change.stored (change : Change) : Change :=
  { change with
    previous := Value.original? change.previous
    desired := change.desired.canonical }

/-- A transaction after it has been stored. -/
def Transaction.stored (transaction : Transaction) : Transaction :=
  { transaction with changes := transaction.changes.map Change.stored }

/-- An entry whose value has been written as JSON and read. -/
def RevertEntry.stored (entry : RevertEntry) : RevertEntry :=
  { entry with previous := Value.ofJson entry.previous.toJson }

/-- A text carries a value within a change: keys are distinct, finite doubles are read as they are
printed, and the transaction, its list of changes and the change leave room for its containers. -/
structure Value.Storable (value : Value) : Prop where
  wellFormed : value.WellFormed
  doubles : ∀ x, Value.float x ∈ value.leaves → x.isFinite = true → Json.ReadsBack x
  shallow : value.toJson.depth + 3 ≤ Json.nestingLimit

theorem Value.storable_of_leaf {value : Value} (hlists : ∀ items, value ≠ .list items)
    (hmaps : ∀ fields, value ≠ .map fields) (hfloats : ∀ x, value ≠ .float x) :
    value.Storable := by
  have hleaves := leaves_of_leaf hlists hmaps
  cases value with
  | list items => exact absurd rfl (hlists items)
  | map fields => exact absurd rfl (hmaps fields)
  | float x => exact absurd rfl (hfloats x)
  | _ =>
    refine ⟨trivial, fun x hx => ?_, by simp [toJson, Json.depth, Json.nestingLimit]⟩
    rw [hleaves, List.mem_singleton] at hx
    cases hx

/-- A text carries both values of a change. -/
structure Change.Storable (change : Change) : Prop where
  previous : ∀ value, change.previous = some value → value.Storable
  desired : change.desired.Storable

/-- A text carries the values of a transaction, and its times are read as they are printed. -/
structure Transaction.Storable (transaction : Transaction) : Prop where
  changes : ∀ change ∈ transaction.changes, change.Storable
  created : Instant.parse transaction.createdAt.print = some transaction.createdAt
  ended : ∀ ended, transaction.endedAt = some ended → Instant.parse ended.print = some ended

namespace RawJson

theorem word32?_raw (word : UInt32) : word32? (Json.raw (.integer word.toNat)) = some word := by
  have hword : word.toNat < UInt32.size := word.toNat_lt
  have hnatural : form.natural (Json.raw (.integer word.toNat)) = some word.toNat :=
    natural?_raw (Nat.lt_trans hword (by decide))
  rw [word32?, Form.below, hnatural, Option.bind_some, if_pos hword, Option.map_some,
    UInt32.ofNat_toNat]

theorem value?_raw {value : Value} (h : value.Storable) :
    value? (Json.nestingLimit - 3) value.toJson.raw = some value.canonical := by
  have hroom : value.toJson.depth ≤ Json.nestingLimit - 3 := Nat.le_sub_of_add_le h.shallow
  have hfaithful := Value.faithful_toJson h.wellFormed h.doubles
  rw [value?, Json.toJson_raw hfaithful hroom, Option.map_some, Value.ofJson_toJson]

end RawJson

theorem Value.isNull_iff (value : Value) : value.isNull = true ↔ value = .null := by
  cases value <;> simp [isNull]

/-- Null is the canonical form of no other value whose doubles are finite. -/
theorem Value.isNull_canonical {value : Value} (h : AllFinite value) :
    value.canonical.isNull = value.isNull := by
  cases value with
  | float x =>
    have hx : canonical (.float x) = .float x := if_pos h
    rw [hx]
  | list items =>
    rw [canonical, mapLeaves_list]
    rfl
  | map fields =>
    rw [canonical, mapLeaves_map]
    rfl
  | _ => rfl

theorem Value.isNull_ofJson (json : Json) : (ofJson json).isNull = true ↔ json = .null := by
  cases json with
  | null => exact iff_of_true rfl rfl
  | integer n =>
    refine iff_of_false (fun h => ?_) fun h => by cases h
    rw [ofJson, ofInteger] at h
    split at h <;> cases h
  | _ => exact iff_of_false (fun h => by cases h) fun h => by cases h

theorem Value.original?_some (value : Value) :
    original? (some value) = if value.canonical.isNull then none else some value.canonical := by
  rw [original?, Option.map_some, Option.filter_some]
  cases value.canonical.isNull <;> rfl

/-- An original value is read as it is stored. -/
theorem RawJson.maybe_original {value : Option Value}
    (h : ∀ known, value = some known → known.Storable) :
    form.maybe (value? (Json.nestingLimit - 3)) (Json.ofValue? value).raw =
      some (Value.original? value) := by
  cases value with
  | none => rfl
  | some known =>
    have hstorable := h known rfl
    have hjson : Json.ofValue? (some known) = known.toJson := rfl
    rw [hjson, Value.original?_some]
    by_cases hnull : known.toJson = .null
    · have hlost : known.canonical.isNull = true := by
        rw [← Value.ofJson_toJson, Value.isNull_ofJson]
        exact hnull
      rw [hnull, hlost]
      rfl
    · have hheld : ¬ known.canonical.isNull = true := by
        rw [← Value.ofJson_toJson, Value.isNull_ofJson]
        exact hnull
      have hfaithful := Value.faithful_toJson hstorable.wellFormed hstorable.doubles
      rw [maybe_raw _ hfaithful hnull, value?_raw hstorable, if_neg hheld, Option.map_some]

/-- A content that is null when it is absent is read as it was, when no content is null. -/
theorem RawJson.maybe_getD {α : Type} {read : RawJson → Option α} {toJson : α → Json}
    {content : Option α}
    (h : ∀ given, content = some given →
      (toJson given).Faithful ∧ toJson given ≠ .null ∧ read (toJson given).raw = some given) :
    form.maybe read ((content.map toJson).getD .null).raw = some content := by
  cases content with
  | none => rfl
  | some given =>
    obtain ⟨hfaithful, hnull, hread⟩ := h given rfl
    show form.maybe read (toJson given).raw = some (some given)
    rw [maybe_raw read hfaithful hnull, hread, Option.map_some]

namespace Change

theorem faithful_word (word : UInt32) : (Json.integer word.toNat).Faithful :=
  Json.faithful_natural (Nat.lt_trans word.toNat_lt (by decide))

theorem ofRaw_raw {change : Change} (h : change.Storable) :
    ofRaw (Json.nestingLimit - 2) change.toJson.raw = some change.stored := by
  have hkind : ChangeKind.all.find? (fun kind => kind.name == change.kind.name) =
      some change.kind := by
    cases change.kind <;> rfl
  have hstatus : ChangeStatus.all.find? (fun status => status.name == change.status.name) =
      some change.status := by
    cases change.status <;> rfl
  have hnode : NodeId.ofRaw change.node.toJson.raw = some change.node := by
    rw [NodeId.ofRaw, NodeId.toJson, RawJson.word32?_raw]
    rfl
  have hmessage : RawJson.form.maybe RawJson.text?
      ((change.errorMessage.map Json.text).getD .null).raw = some change.errorMessage :=
    RawJson.maybe_getD fun message _ =>
      ⟨trivial, fun hnull => (by cases hnull), RawJson.text?_raw message⟩
  have hpacket : RawJson.form.maybe RawJson.word32?
      ((change.packet.map fun packet => Json.integer packet.toNat).getD .null).raw =
        some change.packet :=
    RawJson.maybe_getD fun packet _ =>
      ⟨faithful_word packet, fun hnull => (by cases hnull), RawJson.word32?_raw packet⟩
  have hrecord : RawJson.record? fieldNames change.toJson.raw = some _ :=
    RawJson.record?_raw rfl (by decide)
  -- The fields are read in their order, each from its own content.
  rw [ofRaw]
  refine Option.bind_eq_some_iff.mpr ⟨_, hrecord, ?_⟩
  refine Option.bind_eq_some_iff.mpr ⟨_, Record.required_raw rfl (RawJson.choice?_raw hkind), ?_⟩
  refine Option.bind_eq_some_iff.mpr ⟨_, Record.required_raw rfl hnode, ?_⟩
  refine Option.bind_eq_some_iff.mpr ⟨_, Record.required_raw rfl (RawJson.text?_raw _), ?_⟩
  refine Option.bind_eq_some_iff.mpr
    ⟨_, Record.optional_raw rfl (RawJson.maybe_original h.previous), ?_⟩
  refine Option.bind_eq_some_iff.mpr ⟨_, Record.required_raw rfl (RawJson.value?_raw h.desired), ?_⟩
  refine Option.bind_eq_some_iff.mpr ⟨_, Record.required_raw rfl (RawJson.choice?_raw hstatus), ?_⟩
  refine Option.bind_eq_some_iff.mpr ⟨_, Record.optional_raw rfl hmessage, ?_⟩
  exact Option.bind_eq_some_iff.mpr ⟨_, Record.optional_raw rfl hpacket, rfl⟩

theorem faithful_toJson {change : Change} (h : change.Storable) : change.toJson.Faithful := by
  have hprevious : (Json.ofValue? change.previous).Faithful := by
    cases hvalue : change.previous with
    | none => trivial
    | some value =>
      have hstorable := h.previous value hvalue
      exact Value.faithful_toJson hstorable.wellFormed hstorable.doubles
  have hdesired := Value.faithful_toJson h.desired.wellFormed h.desired.doubles
  have hmessage : ((change.errorMessage.map Json.text).getD .null).Faithful := by
    cases change.errorMessage <;> trivial
  have hpacket :
      ((change.packet.map fun packet => Json.integer packet.toNat).getD .null).Faithful := by
    cases change.packet with
    | none => trivial
    | some packet => exact faithful_word packet
  refine ⟨?_, trivial, faithful_word _, trivial, hprevious, hdesired, trivial, hmessage, hpacket,
    trivial⟩
  show fieldNames.Nodup
  decide

end Change

namespace Transaction

variable {transaction : Transaction}

theorem mapM_ofRaw {changes : List Change} (h : ∀ change ∈ changes, change.Storable) :
    ((changes.map Change.toJson).map Json.raw).mapM (Change.ofRaw (Json.nestingLimit - 2)) =
      some (changes.map Change.stored) := by
  induction changes with
  | nil => rfl
  | cons change rest ih =>
    obtain ⟨hchange, hrest⟩ := List.forall_mem_cons.mp h
    rw [List.map_cons, List.map_cons, List.mapM_cons, Change.ofRaw_raw hchange, ih hrest]
    rfl

theorem ofRaw_raw (h : transaction.Storable) :
    ofRaw transaction.toJson.raw = some transaction.stored := by
  have hid : TransactionId.ofRaw (Json.raw (.text transaction.id.text)) = some transaction.id := by
    rw [TransactionId.ofRaw, RawJson.text?_raw]
    rfl
  have hnode : NodeId.ofRaw transaction.node.toJson.raw = some transaction.node := by
    rw [NodeId.ofRaw, NodeId.toJson, RawJson.word32?_raw]
    rfl
  have hchanges : ((RawJson.list? (Json.raw (.array (transaction.changes.map Change.toJson)))).bind
      fun items => items.mapM (Change.ofRaw (Json.nestingLimit - 2))) =
        some (transaction.changes.map Change.stored) := by
    rw [RawJson.list?_raw, Option.bind_some, mapM_ofRaw h.changes]
  have hinstant {instant : Instant} (hread : Instant.parse instant.print = some instant) :
      (RawJson.text? (Json.raw (.text instant.print))).bind Instant.parse = some instant := by
    rw [RawJson.text?_raw, Option.bind_some, hread]
  have hended : RawJson.form.maybe (fun content => content.text?.bind Instant.parse)
      ((transaction.endedAt.map fun ended => Json.text ended.print).getD .null).raw =
        some transaction.endedAt :=
    RawJson.maybe_getD fun ended hgiven =>
      ⟨trivial, fun hnull => (by cases hnull), hinstant (h.ended ended hgiven)⟩
  have hrecord : RawJson.record? fieldNames transaction.toJson.raw = some _ :=
    RawJson.record?_raw rfl (by decide)
  rw [ofRaw]
  refine Option.bind_eq_some_iff.mpr ⟨_, hrecord, ?_⟩
  refine Option.bind_eq_some_iff.mpr ⟨_, Record.required_raw rfl hid, ?_⟩
  refine Option.bind_eq_some_iff.mpr ⟨_, Record.required_raw rfl hnode, ?_⟩
  refine Option.bind_eq_some_iff.mpr ⟨_, Record.required_raw rfl hchanges, ?_⟩
  refine Option.bind_eq_some_iff.mpr ⟨_, Record.required_raw rfl (RawJson.flag?_raw _), ?_⟩
  refine Option.bind_eq_some_iff.mpr ⟨_, Record.required_raw rfl (RawJson.flag?_raw _), ?_⟩
  refine Option.bind_eq_some_iff.mpr ⟨_, Record.required_raw rfl (RawJson.flag?_raw _), ?_⟩
  refine Option.bind_eq_some_iff.mpr ⟨_, Record.required_raw rfl (hinstant h.created), ?_⟩
  exact Option.bind_eq_some_iff.mpr ⟨_, Record.optional_raw rfl hended, rfl⟩

theorem faithful_toJson (h : transaction.Storable) : transaction.toJson.Faithful := by
  have hchanges : (Json.array (transaction.changes.map Change.toJson)).Faithful := by
    rw [Json.faithful_array, List.forall_mem_map]
    exact fun change hchange => Change.faithful_toJson (h.changes change hchange)
  have hended :
      ((transaction.endedAt.map fun ended => Json.text ended.print).getD .null).Faithful := by
    cases transaction.endedAt <;> trivial
  refine ⟨?_, trivial, Change.faithful_word _, hchanges, trivial, trivial, trivial, trivial, hended,
    trivial⟩
  show fieldNames.Nodup
  decide

/-- A transaction is read from its text as it is stored. -/
theorem parse_print (h : transaction.Storable) :
    parse transaction.toJson.print = some transaction.stored := by
  rw [parse, Json.read_print (faithful_toJson h), Option.bind_some, ofRaw_raw h]

theorem summary_stored (transaction : Transaction) :
    transaction.stored.summary = transaction.summary := by
  have hcount (status : ChangeStatus) :
      transaction.stored.countOf status = transaction.countOf status := by
    rw [countOf, countOf, stored, List.countP_map]
    rfl
  simp only [summary, hcount]
  rw [stored, List.length_map]

theorem hasPending_stored (transaction : Transaction) :
    transaction.stored.hasPending = transaction.hasPending := by
  rw [hasPending, hasPending, stored, List.any_map]
  rfl

/-- Of the entries that revert a transaction, those with a value of null are lost. -/
theorem revertData_stored (transaction : Transaction) :
    transaction.stored.revertData =
      (transaction.revertData.map RevertEntry.stored).filter fun entry =>
        !entry.previous.isNull := by
  have happlied : ((fun change : Change => decide (change.status = .applied)) ∘ Change.stored) =
      fun change : Change => decide (change.status = .applied) := rfl
  rw [revertData, revertData, stored, List.filter_map, happlied, List.filterMap_map,
    List.map_filterMap, List.filter_filterMap]
  refine List.filterMap_congr fun change _ => ?_
  have hoptional : change.stored.previous = Value.original? change.previous := rfl
  rw [Function.comp_apply, hoptional]
  cases change.previous with
  | none => rfl
  | some value =>
    have hentry : RevertEntry.stored ⟨change.kind, change.key, value, change.node⟩ =
        ⟨change.kind, change.key, value.canonical, change.node⟩ := by
      rw [RevertEntry.stored, Value.ofJson_toJson]
    rw [Value.original?_some, Option.map_some, Option.map_some, Option.filter_some, hentry]
    cases value.canonical.isNull <;> rfl

theorem mem_revertData {entry : RevertEntry} :
    entry ∈ transaction.revertData ↔ ∃ change ∈ transaction.changes, change.status = .applied ∧
      ∃ previous, change.previous = some previous ∧
        entry = ⟨change.kind, change.key, previous, change.node⟩ := by
  simp only [revertData, List.mem_filterMap, List.mem_filter, decide_eq_true_eq, and_assoc,
    Option.map_eq_some_iff, eq_comm (b := entry)]

/-- A transaction is read from its own text as itself, with the original values in its revert data
as they come back from JSON, except that entries with a null value are gone. So the revert data is
kept exactly when no applied change is known to have replaced null. -/
theorem parse_print_revertData (h : transaction.Storable)
    (hfinite : ∀ change ∈ transaction.changes, ∀ previous, change.previous = some previous →
      Value.AllFinite previous) :
    ∃ read, parse transaction.toJson.print = some read ∧
      read.id = transaction.id ∧ read.node = transaction.node ∧
      read.isActive = transaction.isActive ∧ read.beginSent = transaction.beginSent ∧
      read.commitSent = transaction.commitSent ∧ read.summary = transaction.summary ∧
      read.hasPending = transaction.hasPending ∧
      read.revertData =
        (transaction.revertData.filter fun entry => !entry.previous.isNull).map
          RevertEntry.stored ∧
      (read.revertData = transaction.revertData.map RevertEntry.stored ↔
        ∀ change ∈ transaction.changes, change.status = .applied →
          change.previous ≠ some .null) := by
  have hkept : transaction.stored.revertData =
      (transaction.revertData.filter fun entry => !entry.previous.isNull).map
        RevertEntry.stored := by
    rw [revertData_stored, List.filter_map]
    refine congrArg (List.map RevertEntry.stored) (List.filter_congr fun entry hentry => ?_)
    obtain ⟨change, hchange, -, previous, hprevious, rfl⟩ := mem_revertData.mp hentry
    have hnull := Value.isNull_canonical (hfinite change hchange previous hprevious)
    rw [Function.comp_apply, RevertEntry.stored, Value.ofJson_toJson, hnull]
  refine ⟨transaction.stored, parse_print h, rfl, rfl, rfl, rfl, rfl, summary_stored transaction,
    hasPending_stored transaction, hkept, ?_⟩
  rw [hkept]
  constructor
  · intro hsame change hchange happlied hprevious
    have hall : ∀ entry ∈ transaction.revertData, (!entry.previous.isNull) = true := by
      have hlength := congrArg List.length hsame
      rw [List.length_map, List.length_map] at hlength
      exact List.length_filter_eq_length_iff.mp hlength
    have hentry : ⟨change.kind, change.key, .null, change.node⟩ ∈ transaction.revertData :=
      mem_revertData.mpr ⟨change, hchange, happlied, .null, hprevious, rfl⟩
    cases hall _ hentry
  · intro hknown
    refine congrArg (List.map RevertEntry.stored) (List.filter_eq_self.mpr fun entry hentry => ?_)
    obtain ⟨change, hchange, happlied, previous, hprevious, rfl⟩ := mem_revertData.mp hentry
    rw [Bool.not_eq_true', Bool.eq_false_iff]
    intro hnull
    rw [(Value.isNull_iff previous).mp hnull] at hprevious
    exact hknown change hchange happlied hprevious

/-- An applied change of a list with bytes, and a change of null that fails: the entry of the first
comes back with base64 text. -/
theorem parse_print_revertData_bytes :
    let id : TransactionId := .generate ⟨1⟩ 1
    let original : Value := .list [.bytes [1], .float 0.5]
    let registry := (Registry.run .empty [.begin ⟨1⟩ ⟨0, 0⟩,
      .register id ⟨.config, ⟨1⟩, "lora", some original, .int 7, false⟩,
      .register id ⟨.owner, ⟨1⟩, "owner", some .null, .text "n", false⟩,
      .markApplied id "lora" (some 9), .markFailed id "owner" "timeout"]).1
    ∃ transaction, registry.get? id = some transaction ∧ transaction.Storable ∧
      ∃ read, parse transaction.toJson.print = some read ∧
        read.summary = ⟨id, ⟨1⟩, 2, 1, 0, 1, 0, false, false⟩ ∧
        transaction.revertData = [⟨.config, "lora", original, ⟨1⟩⟩] ∧
        read.revertData = [⟨.config, "lora", .list [.text "AQ==", .float 0.5], ⟨1⟩⟩] := by
  intro id original registry
  let applied : Change :=
    ⟨.config, ⟨1⟩, "lora", some original, .int 7, .applied, none, some 9⟩
  let failed : Change :=
    ⟨.owner, ⟨1⟩, "owner", some .null, .text "n", .failed, some "timeout", none⟩
  let transaction : Transaction :=
    ⟨id, ⟨1⟩, [applied, failed], true, false, false, ⟨0, 0⟩, none⟩
  have hget : registry.get? id = some transaction := rfl
  have hhalf : Json.ReadsBack 0.5 := rfl
  have horiginal : original.Storable := by
    have hw : original.WellFormed := ⟨trivial, trivial, trivial⟩
    refine ⟨hw, fun x hx _ => ?_, by decide⟩
    have hleaves : original.leaves = [.bytes [1], .float 0.5] := rfl
    rw [hleaves] at hx
    cases hx with
    | tail _ hx =>
      rw [Value.float.inj (List.mem_singleton.mp hx)]
      exact hhalf
  have happlied : applied.Storable := by
    refine ⟨?_, Value.storable_of_leaf nofun nofun nofun⟩
    rintro _ ⟨⟩
    exact horiginal
  have hfailed : failed.Storable := by
    refine ⟨?_, Value.storable_of_leaf nofun nofun nofun⟩
    rintro _ ⟨⟩
    exact Value.storable_of_leaf nofun nofun nofun
  have hstorable : transaction.Storable := by
    refine ⟨List.forall_mem_cons.mpr ⟨happlied, List.forall_mem_singleton.mpr hfailed⟩, ?_, nofun⟩
    decide +kernel
  have hfinite : ∀ change ∈ transaction.changes, ∀ previous, change.previous = some previous →
      Value.AllFinite previous := by
    refine List.forall_mem_cons.mpr ⟨?_, List.forall_mem_singleton.mpr ?_⟩
    · rintro _ ⟨⟩
      exact ⟨trivial, Json.isFinite_of_readsBack hhalf, trivial⟩
    · rintro _ ⟨⟩
      trivial
  have hlist : applied.previous ≠ some .null := by
    show some (Value.list [.bytes [1], .float 0.5]) ≠ some .null
    nofun
  have hknown : ∀ change ∈ transaction.changes, change.status = .applied →
      change.previous ≠ some .null :=
    List.forall_mem_cons.mpr ⟨fun _ => hlist, List.forall_mem_singleton.mpr nofun⟩
  obtain ⟨read, hread, -, -, -, -, -, hsummary, -, -, hrevert⟩ :=
    parse_print_revertData hstorable hfinite
  exact ⟨transaction, hget, hstorable, read, hread, hsummary, rfl, hrevert.mpr hknown⟩

/-- The entry of an applied change of null is lost. -/
theorem parse_print_revertData_null :
    let id : TransactionId := .generate ⟨1⟩ 1
    let registry := (Registry.run .empty [.begin ⟨1⟩ ⟨0, 0⟩,
      .register id ⟨.config, ⟨1⟩, "lora", some .null, .int 5, false⟩,
      .markApplied id "lora" none]).1
    ∃ transaction read, registry.get? id = some transaction ∧
      (∀ change ∈ transaction.changes, ∀ previous, change.previous = some previous →
        Value.AllFinite previous) ∧
      parse transaction.toJson.print = some read ∧
      transaction.revertData = [⟨.config, "lora", .null, ⟨1⟩⟩] ∧ read.revertData = [] := by
  intro id registry
  let applied : Change := ⟨.config, ⟨1⟩, "lora", some .null, .int 5, .applied, none, none⟩
  let transaction : Transaction := ⟨id, ⟨1⟩, [applied], true, false, false, ⟨0, 0⟩, none⟩
  have hget : registry.get? id = some transaction := rfl
  have happlied : applied.Storable := by
    refine ⟨?_, Value.storable_of_leaf nofun nofun nofun⟩
    rintro _ ⟨⟩
    exact Value.storable_of_leaf nofun nofun nofun
  have hstorable : transaction.Storable :=
    ⟨List.forall_mem_singleton.mpr happlied, by decide +kernel, nofun⟩
  refine ⟨transaction, transaction.stored, hget, List.forall_mem_singleton.mpr ?_,
    parse_print hstorable, rfl, rfl⟩
  rintro _ ⟨⟩
  trivial

end Transaction

end RadioAdmin
