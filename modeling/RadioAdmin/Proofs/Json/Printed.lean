import RadioAdmin.Proofs.Fields
import RadioAdmin.Proofs.Json.Basic
import RadioAdmin.Proofs.Json.Number
import RadioAdmin.Proofs.Json.Quoted

/-!
# JSON values that are printed and read

The reader goes through the text of a value and ends where the value has been placed. By induction
over the value: each member takes the reader from one place between tokens to the next, whatever
containers are open around it. So a text is read as the value that it was printed from. It has to
hold what texts can carry, which leaves out doubles that the two roundings of the reader miss.
-/
namespace RadioAdmin

open RawJson (Reader Frame Expecting place number? isNumberChar)

namespace Json

/-- The text of a double is read as this double. -/
def ReadsBack (x : Float) : Prop := Json.parse (Json.print (.float x)) = some (.float x)

mutual

/-- A value that a text can carry: its integers fit a word, its doubles are read as they are
printed, and no object has a name twice. -/
def Faithful : Json → Prop
  | .integer value => Int64.minValue.toInt ≤ value ∧ value < UInt64.size
  | .float value => ReadsBack value
  | .array items => FaithfulItems items
  | .object fields => Fields.Distinct fields ∧ FaithfulFields fields
  | _ => True

def FaithfulItems : List Json → Prop
  | [] => True
  | item :: rest => Faithful item ∧ FaithfulItems rest

def FaithfulFields : List (String × Json) → Prop
  | [] => True
  | (_, content) :: rest => Faithful content ∧ FaithfulFields rest

end

/-- The tree of the text of a number. -/
def rawNumber (text : String) : RawJson := ((number? text.toList).map .number).getD .null

mutual

/-- The tree of the text of a value. -/
def raw : Json → RawJson
  | .null => .null
  | .bool value => .bool value
  | .integer value => rawNumber (toString value)
  | .float value => rawNumber (printFloat value)
  | .text value => .text (piecesOfText value)
  | .array items => .array (rawItems items)
  | .object fields => .object (rawFields fields)

def rawItems : List Json → List RawJson
  | [] => []
  | item :: rest => raw item :: rawItems rest

def rawFields : List (String × Json) → List (List TextPiece × RawJson)
  | [] => []
  | (name, content) :: rest => (piecesOfText name, raw content) :: rawFields rest

end

theorem faithfulItems_iff (items : List Json) :
    FaithfulItems items ↔ ∀ item ∈ items, Faithful item := by
  induction items with
  | nil => simp [FaithfulItems]
  | cons item rest ih => simp [FaithfulItems, ih]

theorem faithfulFields_iff (fields : List (String × Json)) :
    FaithfulFields fields ↔ ∀ field ∈ fields, Faithful field.2 := by
  induction fields with
  | nil => simp [FaithfulFields]
  | cons field rest ih => simp [FaithfulFields, ih]

theorem faithful_array (items : List Json) :
    Faithful (.array items) ↔ ∀ item ∈ items, Faithful item := faithfulItems_iff items

theorem faithful_object (fields : List (String × Json)) :
    Faithful (.object fields) ↔ Fields.Distinct fields ∧ ∀ field ∈ fields, Faithful field.2 := by
  rw [Faithful, faithfulFields_iff]

theorem faithful_natural {n : Nat} (h : n < UInt64.size) : Faithful (.integer n) := by
  have hleast : Int64.minValue.toInt ≤ 0 := by decide
  exact ⟨Int.le_trans hleast (Int.natCast_nonneg n), Int.ofNat_lt.mpr h⟩

theorem rawItems_eq_map (items : List Json) : rawItems items = items.map raw := by
  induction items with
  | nil => rfl
  | cons item rest ih => exact congrArg (raw item :: ·) ih

theorem rawFields_eq_map (fields : List (String × Json)) :
    rawFields fields = fields.map fun field => (piecesOfText field.1, raw field.2) := by
  induction fields with
  | nil => rfl
  | cons field rest ih => exact congrArg ((piecesOfText field.1, raw field.2) :: ·) ih

theorem raw_array (items : List Json) : raw (.array items) = .array (items.map raw) :=
  congrArg RawJson.array (rawItems_eq_map items)

theorem raw_object (fields : List (String × Json)) :
    raw (.object fields) =
      .object (fields.map fun field => (piecesOfText field.1, raw field.2)) :=
  congrArg RawJson.object (rawFields_eq_map fields)

end Json

namespace RawJson

/-- The text takes the reader to a place between tokens. A number or a word goes on until something
else follows, so the reader may still stand within it, and is at that place as soon as the end of
all or a mark comes. -/
def ReadsTo (reader : Reader) (text : List Char) (target : Reader) : Prop :=
  ∃ next, text.foldlM Reader.step reader = some next ∧ next.settle = some target ∧
    ∀ c, isNumberChar c = false → c.isAlpha = false → next.step c = target.inGap c

variable {reader middle target : Reader} {text front back : List Char} {stack : List Frame}
  {orClose : Bool}

theorem ReadsTo.of_foldlM (h : text.foldlM Reader.step reader = some target)
    (hgap : target.within = .gap) : ReadsTo reader text target := by
  refine ⟨target, h, ?_, fun c _ _ => ?_⟩
  · rw [Reader.settle, hgap]
  · rw [Reader.step, hgap]

theorem ReadsTo.append (hfront : front.foldlM Reader.step reader = some middle)
    (hback : ReadsTo middle back target) : ReadsTo reader (front ++ back) target := by
  obtain ⟨next, hnext, hrest⟩ := hback
  refine ⟨next, ?_, hrest⟩
  rw [List.foldlM_append, hfront]
  exact hnext

/-- A mark behind the text ends its last token. -/
theorem ReadsTo.foldlM_mark {c : Char} (h : ReadsTo reader text target)
    (hnumber : isNumberChar c = false) (halpha : c.isAlpha = false)
    (hmark : target.inGap c = some middle) :
    (text ++ [c]).foldlM Reader.step reader = some middle := by
  obtain ⟨next, hnext, -, hstep⟩ := h
  rw [List.foldlM_append, hnext, Option.bind_eq_bind, Option.bind_some, List.foldlM_cons,
    hstep c hnumber halpha, hmark]
  rfl

theorem within_place (value : RawJson) (stack : List Frame) :
    (place value stack).within = .gap := by
  rcases stack with _ | ⟨_ | _, _⟩ <;> rfl

theorem inGap_number {c : Char} (h : (c.isDigit || c = '-') = true) :
    Reader.inGap ⟨stack, .value orClose, .gap⟩ c =
      some ⟨stack, .value orClose, .number [c]⟩ := by
  have hgap : isGap c = false := by
    rw [Bool.eq_false_iff]
    intro hc
    simp only [isGap, Bool.or_eq_true, decide_eq_true_eq] at hc
    rcases hc with ((rfl | rfl) | rfl) | rfl <;> cases h
  have hquote : c ≠ '"' := by
    rintro rfl
    cases h
  rw [Reader.inGap, hgap, if_neg (by decide), if_neg hquote, if_pos h]

theorem foldlM_isNumberChar (done : List Char) (h : ∀ c ∈ text, isNumberChar c = true) :
    text.foldlM Reader.step ⟨stack, .value orClose, .number done⟩ =
      some ⟨stack, .value orClose, .number (text.reverse ++ done)⟩ := by
  induction text generalizing done with
  | nil => rfl
  | cons c rest ih =>
    have hc : Reader.step ⟨stack, .value orClose, .number done⟩ c =
        some ⟨stack, .value orClose, .number (c :: done)⟩ := if_pos (h c List.mem_cons_self)
    rw [List.foldlM_cons, hc, Option.bind_eq_bind, Option.bind_some,
      ih _ fun other hother => h other (List.mem_cons_of_mem c hother), List.reverse_cons,
      List.append_assoc]
    rfl

theorem foldlM_numberText (h : NumberText text) :
    text.foldlM Reader.step ⟨stack, .value orClose, .gap⟩ =
      some ⟨stack, .value orClose, .number text.reverse⟩ := by
  obtain ⟨first, rest, rfl, hfirst⟩ := h.first
  have hopen : Reader.step ⟨stack, .value orClose, .gap⟩ first =
      some ⟨stack, .value orClose, .number [first]⟩ := inGap_number hfirst
  rw [List.foldlM_cons, hopen, Option.bind_eq_bind, Option.bind_some,
    foldlM_isNumberChar _ (List.forall_mem_cons.mp h.chars).2, List.reverse_cons]

theorem settle_number (done : List Char) :
    Reader.settle ⟨stack, .value orClose, .number done⟩ =
      (number? done.reverse).map fun written => place (.number written) stack := by
  show (number? done.reverse).bind (fun written => some (place (.number written) stack)) = _
  rw [Option.map_eq_bind]
  rfl

theorem settle_word (done : List Char) :
    Reader.settle ⟨stack, .value orClose, .word done⟩ =
      (word? (String.ofList done.reverse)).map fun value => place value stack := by
  show (word? (String.ofList done.reverse)).bind (fun value => some (place value stack)) = _
  rw [Option.map_eq_bind]
  rfl

theorem step_number {c : Char} (done : List Char) (h : isNumberChar c = false) :
    Reader.step ⟨stack, .value orClose, .number done⟩ c =
      (Reader.settle ⟨stack, .value orClose, .number done⟩).bind fun settled => settled.inGap c :=
  if_neg (by rw [h]; decide)

theorem step_word {c : Char} (done : List Char) (h : c.isAlpha = false) :
    Reader.step ⟨stack, .value orClose, .word done⟩ c =
      (Reader.settle ⟨stack, .value orClose, .word done⟩).bind fun settled => settled.inGap c :=
  if_neg (by rw [h]; decide)

theorem readsTo_number {written : WrittenNumber} (h : NumberText text)
    (hwritten : number? text = some written) :
    ReadsTo ⟨stack, .value orClose, .gap⟩ text (place (.number written) stack) := by
  have hsettle : Reader.settle ⟨stack, .value orClose, .number text.reverse⟩ =
      some (place (.number written) stack) := by
    rw [settle_number, List.reverse_reverse, hwritten, Option.map_some]
  refine ⟨_, foldlM_numberText h, hsettle, fun c hnumber _ => ?_⟩
  rw [step_number _ hnumber, hsettle, Option.bind_some]

/-- A word of letters that begins a value stands for itself when it is known. -/
theorem readsTo_word {value : RawJson} (word : List Char)
    (hfold : text.foldlM Reader.step ⟨stack, .value orClose, .gap⟩ =
      some ⟨stack, .value orClose, .word word⟩)
    (hword : word? (String.ofList word.reverse) = some value) :
    ReadsTo ⟨stack, .value orClose, .gap⟩ text (place value stack) := by
  have hsettle : Reader.settle ⟨stack, .value orClose, .word word⟩ =
      some (place value stack) := by
    rw [settle_word, hword, Option.map_some]
  refine ⟨_, hfold, hsettle, fun c _ halpha => ?_⟩
  rw [step_word _ halpha, hsettle, Option.bind_some]

/-- A text that is nothing but a number is the tree of this number. -/
theorem read_numberText {text : String} (h : NumberText text.toList) :
    read text = (number? text.toList).map .number := by
  rw [read, foldlM_numberText h, Option.bind_eq_bind, Option.bind_some, settle_number,
    List.reverse_reverse]
  cases number? text.toList with
  | none => rfl
  | some written => rfl

/-- The text of a value takes the reader from where a value may stand to where it is placed. -/
def IsRead (value : Json) : Prop :=
  ∀ stack orClose,
    ReadsTo ⟨stack, .value orClose, .gap⟩ value.print.toList (place value.raw stack)

variable (stack orClose)

/-- Items with commas between them are placed in the open array, which holds its last item first. -/
theorem readsTo_items {items : List Json} (hne : items ≠ []) (h : ∀ item ∈ items, IsRead item)
    (done : List RawJson) :
    ReadsTo ⟨.array done :: stack, .value orClose, .gap⟩
      ([','].intercalate (items.map fun item => item.print.toList))
      ⟨.array ((items.map Json.raw).reverse ++ done) :: stack, .separator, .gap⟩ := by
  induction items generalizing done orClose with
  | nil => exact absurd rfl hne
  | cons item rest ih =>
    obtain ⟨hitem, hrest⟩ := List.forall_mem_cons.mp h
    have hplaced := hitem (.array done :: stack) orClose
    cases rest with
    | nil =>
      rw [List.map_singleton, List.intercalate_singleton]
      exact hplaced
    | cons next more =>
      -- Behind the comma the array may not close, but this is the only change to what may come.
      have hcomma := hplaced.foldlM_mark (c := ',') rfl rfl rfl
      have hmore := ih false (List.cons_ne_nil next more) hrest (item.raw :: done)
      have hframe : ((item :: next :: more).map Json.raw).reverse ++ done =
          ((next :: more).map Json.raw).reverse ++ item.raw :: done := by
        rw [List.map_cons, List.reverse_cons, ← List.append_cons]
      rw [hframe, List.map_cons, List.map_cons, List.intercalate_cons_cons]
      exact hmore.append hcomma

/-- A field is read as its name, a colon and its content. -/
theorem readsTo_field {content : Json} (h : IsRead content) (name : String)
    (done : List (List TextPiece × RawJson)) (old : List TextPiece) :
    ReadsTo ⟨.object done old :: stack, .name orClose, .gap⟩
      ((Json.printText name).toList ++ ':' :: content.print.toList)
      ⟨.object ((piecesOfText name, content.raw) :: done) [] :: stack, .separator, .gap⟩ := by
  have hname := foldlM_printText (.object done old :: stack) (.name orClose) name
  have hcontent := h (.object done (piecesOfText name) :: stack) false
  have hcolon : ReadsTo ⟨.object done (piecesOfText name) :: stack, .colon, .gap⟩
      ([':'] ++ content.print.toList)
      (place content.raw (.object done (piecesOfText name) :: stack)) :=
    hcontent.append rfl
  exact hcolon.append hname

/-- Fields with commas between them are placed in the open object, the last one first. -/
theorem readsTo_fields {fields : List (String × Json)} (hne : fields ≠ [])
    (h : ∀ field ∈ fields, IsRead field.2) (done : List (List TextPiece × RawJson))
    (old : List TextPiece) :
    ReadsTo ⟨.object done old :: stack, .name orClose, .gap⟩
      ([','].intercalate (fields.map fun field =>
        (Json.printText field.1).toList ++ ':' :: field.2.print.toList))
      ⟨.object ((fields.map fun field => (piecesOfText field.1, field.2.raw)).reverse ++ done) [] ::
        stack, .separator, .gap⟩ := by
  induction fields generalizing done old orClose with
  | nil => exact absurd rfl hne
  | cons field rest ih =>
    obtain ⟨hfield, hrest⟩ := List.forall_mem_cons.mp h
    have hplaced := readsTo_field stack orClose hfield field.1 done old
    cases rest with
    | nil =>
      rw [List.map_singleton, List.intercalate_singleton]
      exact hplaced
    | cons next more =>
      have hcomma := hplaced.foldlM_mark (c := ',') rfl rfl rfl
      have hmore := ih false (List.cons_ne_nil next more) hrest
        ((piecesOfText field.1, field.2.raw) :: done) []
      have hframe (named : String × Json → List TextPiece × RawJson) :
          ((field :: next :: more).map named).reverse ++ done =
            ((next :: more).map named).reverse ++ named field :: done := by
        rw [List.map_cons, List.reverse_cons, ← List.append_cons]
      rw [hframe, List.map_cons, List.map_cons, List.intercalate_cons_cons]
      exact hmore.append hcomma

theorem isRead_array {items : List Json} (h : ∀ item ∈ items, IsRead item) :
    IsRead (.array items) := by
  intro stack orClose
  rw [Json.toList_print_array, Json.raw_array]
  refine ReadsTo.of_foldlM ?_ (within_place _ _)
  have hopen : Reader.step ⟨stack, .value orClose, .gap⟩ '[' =
      some ⟨.array [] :: stack, .value true, .gap⟩ := rfl
  rw [List.foldlM_cons, hopen, Option.bind_eq_bind, Option.bind_some]
  cases items with
  | nil => rfl
  | cons item rest =>
    have hitems := readsTo_items stack true (List.cons_ne_nil item rest) h []
    have hclose := hitems.foldlM_mark (c := ']') rfl rfl rfl
    rw [List.append_nil, List.reverse_reverse] at hclose
    exact hclose

theorem isRead_object {fields : List (String × Json)} (h : ∀ field ∈ fields, IsRead field.2) :
    IsRead (.object fields) := by
  intro stack orClose
  rw [Json.toList_print_object, Json.raw_object]
  refine ReadsTo.of_foldlM ?_ (within_place _ _)
  have hopen : Reader.step ⟨stack, .value orClose, .gap⟩ '{' =
      some ⟨.object [] [] :: stack, .name true, .gap⟩ := rfl
  rw [List.foldlM_cons, hopen, Option.bind_eq_bind, Option.bind_some]
  cases fields with
  | nil => rfl
  | cons field rest =>
    have hfields :=
      readsTo_fields stack true (List.cons_ne_nil field rest) h [] []
    have hclose := hfields.foldlM_mark (c := '}') rfl rfl rfl
    rw [List.append_nil, List.reverse_reverse] at hclose
    exact hclose

end RawJson

namespace Json

theorem isFinite_of_readsBack {x : Float} (h : ReadsBack x) : x.isFinite = true := by
  by_contra hnot
  have hprint : print (.float x) = "null" := if_neg hnot
  have hnull : parse "null" = some .null := rfl
  rw [ReadsBack, hprint, hnull] at h
  cases h

/-- The text of a double that is read back is the text of a number, which stands for it. -/
theorem exists_number_of_readsBack {x : Float} (h : ReadsBack x) :
    ∃ written, number? (printFloat x).toList = some written ∧ written.toJson = some (.float x) := by
  have hprint : print (.float x) = printFloat x := rfl
  rw [ReadsBack, parse, hprint,
    RawJson.read_numberText (numberText_printFloat (isFinite_of_readsBack h))] at h
  obtain ⟨tree, htree, hvalue⟩ := Option.bind_eq_some_iff.mp h
  obtain ⟨written, hwritten, rfl⟩ := Option.map_eq_some_iff.mp htree
  exact ⟨written, hwritten, hvalue⟩

theorem exists_number_of_integer {n : Int} (h : Faithful (.integer n)) :
    ∃ written, number? (toString n).toList = some written ∧ written.toJson = some (.integer n) := by
  refine ⟨_, ?_, toJson_ofInteger h.1 h.2⟩
  rw [toList_integer, number?_integer]

theorem rawNumber_eq {text : String} {written : WrittenNumber}
    (h : number? text.toList = some written) : rawNumber text = .number written := by
  rw [rawNumber, h]
  rfl

theorem isRead_of_faithful {value : Json} (h : Faithful value) : RawJson.IsRead value := by
  induction value using members_induction with
  | leaf value harrays hobjects =>
    intro stack orClose
    cases value with
    | array items => exact absurd rfl (harrays items)
    | object fields => exact absurd rfl (hobjects fields)
    | null => exact RawJson.readsTo_word ['l', 'l', 'u', 'n'] rfl rfl
    | bool value =>
      cases value with
      | true => exact RawJson.readsTo_word ['e', 'u', 'r', 't'] rfl rfl
      | false => exact RawJson.readsTo_word ['e', 's', 'l', 'a', 'f'] rfl rfl
    | integer n =>
      obtain ⟨written, hwritten, -⟩ := exists_number_of_integer h
      have htext : NumberText (toString n).toList := by
        rw [toList_integer]
        exact numberText_integer _ _
      rw [raw, rawNumber_eq hwritten]
      exact RawJson.readsTo_number htext hwritten
    | float x =>
      obtain ⟨written, hwritten, -⟩ := exists_number_of_readsBack h
      rw [raw, rawNumber_eq hwritten]
      exact RawJson.readsTo_number (numberText_printFloat (isFinite_of_readsBack h)) hwritten
    | text value =>
      exact RawJson.ReadsTo.of_foldlM (foldlM_printText stack (.value orClose) value)
        (RawJson.within_place _ _)
  | array items ih =>
    have hitems := (faithful_array items).mp h
    exact RawJson.isRead_array fun item hitem => ih item hitem (hitems item hitem)
  | object fields ih =>
    have hcontents := ((faithful_object fields).mp h).2
    exact RawJson.isRead_object fun field hfield => ih field hfield (hcontents field hfield)

/-- The text of a value is read as its tree. -/
theorem read_print {value : Json} (h : Faithful value) :
    RawJson.read value.print = some value.raw := by
  obtain ⟨next, hnext, hsettle, -⟩ := isRead_of_faithful h [] false
  rw [RawJson.read, hnext, Option.bind_eq_bind, Option.bind_some, hsettle]
  rfl

theorem itemsToJson_map_raw {items : List Json} {room : Nat}
    (h : ∀ item ∈ items, item.raw.toJson room = some item) :
    RawJson.itemsToJson (items.map raw) room = some items := by
  induction items with
  | nil => rfl
  | cons item rest ih =>
    obtain ⟨hitem, hrest⟩ := List.forall_mem_cons.mp h
    rw [List.map_cons, RawJson.itemsToJson, hitem, ih hrest]
    rfl

theorem fieldsToJson_map_raw {fields : List (String × Json)} {room : Nat}
    (h : ∀ field ∈ fields, field.2.raw.toJson room = some field.2) :
    RawJson.fieldsToJson (fields.map fun field => (piecesOfText field.1, field.2.raw)) room =
      some fields := by
  induction fields with
  | nil => rfl
  | cons field rest ih =>
    obtain ⟨hfield, hrest⟩ := List.forall_mem_cons.mp h
    rw [List.map_cons, RawJson.fieldsToJson, textOfPieces_piecesOfText, hfield, ih hrest]
    rfl

/-- The tree of a value gives the value back wherever it has room. -/
theorem toJson_raw {value : Json} {room : Nat} (h : Faithful value) (hroom : value.depth ≤ room) :
    value.raw.toJson room = some value := by
  induction value using members_induction generalizing room with
  | leaf value harrays hobjects =>
    cases value with
    | array items => exact absurd rfl (harrays items)
    | object fields => exact absurd rfl (hobjects fields)
    | null => rfl
    | bool value => rfl
    | integer n =>
      obtain ⟨written, hwritten, hvalue⟩ := exists_number_of_integer h
      rw [raw, rawNumber_eq hwritten, RawJson.toJson, hvalue]
    | float x =>
      obtain ⟨written, hwritten, hvalue⟩ := exists_number_of_readsBack h
      rw [raw, rawNumber_eq hwritten, RawJson.toJson, hvalue]
    | text value => rw [raw, RawJson.toJson, textOfPieces_piecesOfText, Option.map_some]
  | array items ih =>
    cases room with
    | zero => exact absurd hroom (Nat.not_succ_le_zero _)
    | succ room =>
      have hitems := depthItems_le_iff.mp (Nat.le_of_succ_le_succ hroom)
      rw [raw_array, RawJson.toJson, itemsToJson_map_raw, Option.map_some]
      exact fun item hitem => ih item hitem ((faithful_array items).mp h item hitem)
        (hitems item hitem)
  | object fields ih =>
    cases room with
    | zero => exact absurd hroom (Nat.not_succ_le_zero _)
    | succ room =>
      obtain ⟨hdistinct, hcontents⟩ := (faithful_object fields).mp h
      have hfields := depthFields_le_iff.mp (Nat.le_of_succ_le_succ hroom)
      rw [raw_object, RawJson.toJson, fieldsToJson_map_raw, Option.map_some,
        Fields.ofPairs_of_nodup hdistinct]
      exact fun field hfield => ih field hfield (hcontents field hfield) (hfields field hfield)

/-- A value is read as it was printed. -/
theorem parse_print {value : Json} (h : Faithful value) (hdepth : value.depth ≤ nestingLimit) :
    parse value.print = some value := by
  rw [parse, read_print h, Option.bind_some, toJson_raw h hdepth]

end Json

end RadioAdmin
