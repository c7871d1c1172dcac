import RadioAdmin.Json.Form
import RadioAdmin.Proofs.Json.Printed

/-!
# Records that are printed and read

The tree of a printed object is read as the record of its fields, and the tree of each content as
the content. Only null is read as the absence of a content.
-/
namespace RadioAdmin

/-- The content under a name after all contents have changed alike. -/
theorem Fields.get?_map {α β : Type} (fields : Fields α) (change : α → β) (name : String) :
    Fields.get? (fields.map fun field => (field.1, change field.2)) name =
      (Fields.get? fields name).map change := by
  induction fields with
  | nil => rfl
  | cons field rest ih =>
    obtain ⟨other, content⟩ := field
    rw [List.map_cons, Fields.get?, Fields.get?]
    split
    · rfl
    · exact ih

namespace RawJson

variable {α : Type} {json : Json}

theorem text?_raw (text : String) : text? (Json.raw (.text text)) = some text :=
  textOfPieces_piecesOfText text

theorem flag?_raw (flag : Bool) : flag? (Json.raw (.bool flag)) = some flag := rfl

theorem list?_raw (items : List Json) :
    list? (Json.raw (.array items)) = some (items.map Json.raw) := by
  rw [Json.raw_array, list?]

theorem natural?_raw {n : Nat} (h : n < UInt64.size) :
    natural? (Json.raw (.integer n)) = some n := by
  obtain ⟨written, hwritten, hvalue⟩ := Json.exists_number_of_integer (Json.faithful_natural h)
  have hraw : Json.raw (.integer n) = .number written := Json.rawNumber_eq hwritten
  rw [hraw, natural?, hvalue]
  rfl

/-- One of a set of named things is found by its name when no earlier one has this name. -/
theorem choice?_raw {all : List α} {name : α → String} {one : α}
    (h : all.find? (fun other => name other == name one) = some one) :
    choice? all name (Json.raw (.text (name one))) = some one := by
  show (text? (Json.raw (.text (name one)))).bind
    (fun given => all.find? fun other => name other == given) = some one
  rw [text?_raw, Option.bind_some, h]

theorem isNull_raw_iff (h : json.Faithful) : isNull json.raw = true ↔ json = .null := by
  cases json with
  | null => exact iff_of_true rfl rfl
  | integer n =>
    obtain ⟨written, hwritten, -⟩ := Json.exists_number_of_integer h
    rw [Json.raw, Json.rawNumber_eq hwritten]
    exact iff_of_false (fun hn => by cases hn) fun hn => by cases hn
  | float x =>
    obtain ⟨written, hwritten, -⟩ := Json.exists_number_of_readsBack h
    rw [Json.raw, Json.rawNumber_eq hwritten]
    exact iff_of_false (fun hn => by cases hn) fun hn => by cases hn
  | _ => exact iff_of_false (fun hn => by cases hn) fun hn => by cases hn

theorem maybe_raw (read : RawJson → Option α) (h : json.Faithful) (hnull : json ≠ .null) :
    form.maybe read json.raw = (read json.raw).map some := by
  have hraw : isNull json.raw = false :=
    Bool.eq_false_iff.mpr fun hn => hnull ((isNull_raw_iff h).mp hn)
  show (if isNull json.raw = true then _ else _) = _
  rw [hraw]
  rfl

theorem fields?_raw (fields : Fields Json) :
    fields? (Json.raw (.object fields)) =
      some (fields.map fun field => (field.1, field.2.raw)) := by
  rw [Json.raw_object, fields?]
  induction fields with
  | nil => rfl
  | cons field rest ih =>
    rw [List.map_cons, List.mapM_cons, textOfPieces_piecesOfText, ih]
    rfl

/-- The fields of a printed object are all there, under their names. -/
theorem record?_raw {known : List String} {fields : Fields Json} (hnames : fields.names = known)
    (hnodup : known.Nodup) :
    record? known (Json.raw (.object fields)) =
      some ⟨false, fields.map fun field => (field.1, field.2.raw)⟩ := by
  have hgiven : (fields.map fun field => (field.1, field.2.raw)).filter
      (fun pair => known.contains pair.1) = fields.map fun field => (field.1, field.2.raw) := by
    rw [List.filter_eq_self, List.forall_mem_map]
    intro field hfield
    rw [List.contains_iff_mem, ← hnames]
    exact List.mem_map_of_mem hfield
  have hdistinct : ((fields.map fun field => (field.1, field.2.raw)).map Prod.fst).Nodup := by
    rw [← hnames] at hnodup
    rw [List.map_map]
    exact hnodup
  show (fields? (Json.raw (.object fields))).bind (Record.ofMap known) = _
  rw [fields?_raw, Option.bind_some, Record.ofMap, hgiven]
  exact if_pos hdistinct

end RawJson

namespace Record

variable {α : Type} {fields : Fields Json} {name : String} {content : Json}

theorem required_raw {read : RawJson → Option α} {value : α}
    (hcontent : Fields.get? fields name = some content) (hread : read content.raw = some value) :
    required ⟨false, fields.map fun field => (field.1, field.2.raw)⟩ name read = some value := by
  rw [required, Fields.get?_map, hcontent, Option.map_some, Option.bind_some, hread]

theorem optional_raw {read : RawJson → Option (Option α)} {value : Option α}
    (hcontent : Fields.get? fields name = some content) (hread : read content.raw = some value) :
    optional ⟨false, fields.map fun field => (field.1, field.2.raw)⟩ name read = some value := by
  rw [optional, Fields.get?_map, hcontent, Option.map_some]
  exact hread

end Record

end RadioAdmin
