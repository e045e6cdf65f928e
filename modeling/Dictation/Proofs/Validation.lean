import Dictation.Schema.Model

/-!
# Validation undoes dumping

Every value of the library is written as JSON with the declared keys of its records and no others,
and what is written is read back as the same value.  So writing what was read is a normal form.

* `Shape`                    what keys and tags JSON values have at every level;
* `Schema.Normalizes`        a reader against a writer and the shape of what it writes;
* `Schema.models_normalize`  operations, replies, chunks and compiled dictation.
-/

namespace Dictation

/-! ## shapes -/

/-- the form of JSON values -/
inductive Shape where
  | null
  | text
  /-- one text and no other -/
  | word (t : Text)
  | list (item : Shape)
  /-- these keys in this order, and no others -/
  | record (fields : List (String × Shape))
  | either (shapes : List Shape)

namespace Shape

mutual

def fits : Shape → Json → Bool
  | null, .null => true
  | text, v => v.text?.isSome
  | word t, v => v.text? == some t
  | list item, .arr vs => vs.all item.fits
  | record keys, .obj fs => fitsFields keys fs
  | either shapes, v => fitsOne shapes v
  | _, _ => false

def fitsFields : List (String × Shape) → Fields → Bool
  | [], [] => true
  | (k, s) :: keys, (k', v) :: fs => k' == Json.key k && s.fits v && fitsFields keys fs
  | _, _ => false

def fitsOne : List Shape → Json → Bool
  | [], _ => false
  | s :: shapes, v => s.fits v || fitsOne shapes v

end

section
variable {s : Shape} {shapes : List Shape} {v : Json}

theorem fits_ofText (t : Text) : text.fits (.ofText t) = true := by
  change (Json.ofText t).text?.isSome = true
  rw [Json.text?_ofText]
  rfl

theorem fits_word (t : Text) : (word t).fits (.ofText t) = true := by
  change ((Json.ofText t).text? == some t) = true
  rw [Json.text?_ofText]
  exact beq_self_eq_true _

theorem fits_list {α : Type} {write : α → Json} (h : ∀ a, s.fits (write a) = true) (as : List α) :
    (list s).fits (.arr (as.map write)) = true := by
  change (as.map write).all s.fits = true
  rw [List.all_map]
  exact List.all_eq_true.2 fun a _ => h a

theorem fits_either (hs : s ∈ shapes) (h : s.fits v = true) : (either shapes).fits v = true := by
  change fitsOne shapes v = true
  induction shapes with
  | nil => exact absurd hs List.not_mem_nil
  | cons r shapes ih =>
    change (r.fits v || fitsOne shapes v) = true
    rw [Bool.or_eq_true]
    rcases List.mem_cons.1 hs with rfl | hs
    · exact .inl h
    · exact .inr (ih hs)

theorem fits_record_nil : (record []).fits (.record []) = true := rfl

theorem fits_record_cons {k : String} {keys : List (String × Shape)} {fs : List (String × Json)}
    (h : s.fits v = true) (hs : (record keys).fits (.record fs) = true) :
    (record ((k, s) :: keys)).fits (.record ((k, v) :: fs)) = true := by
  rw [Json.record, fits] at hs
  rw [Json.record, List.map_cons, fits, fitsFields, h, hs, Bool.and_true, Bool.and_true]
  exact beq_self_eq_true _

end

/-! ## the models -/

/-- one of some words -/
def oneOf (words : List String) : Shape := either (words.map fun w => word w.toList)

/-- a record that names its kind -/
def tagged (key tag : String) (keys : List (String × Shape)) : Shape :=
  record ((key, word tag.toList) :: keys)

def operation : Shape := either
  [tagged "type" "format" [("style", oneOf ["bold", "italic", "underline"]),
      ("action", oneOf ["make", "unmake", "toggle"])],
    tagged "type" "insertText" [("text", text)],
    tagged "type" "insertNewLine" [],
    tagged "type" "insertNewParagraph" [],
    tagged "type" "deleteLastWord" [],
    tagged "type" "deleteLastSentence" [],
    tagged "type" "undo" [],
    tagged "type" "redo" []]

def reply : Shape := either
  [tagged "kind" "insert" [("text", text)],
    tagged "kind" "ops" [("ops", list operation), ("confidence", oneOf ["high", "medium"])],
    tagged "kind" "confirm" [("ops", list operation), ("prompt", text)]]

def chunk : Shape := either
  [tagged "kind" "text" [("text", text)],
    tagged "kind" "command" [("source_text", text), ("parse", reply)]]

def confirmation : Shape := record
  [("prompt", text), ("source_text", text), ("pending_ops", list operation),
    ("all_ops", list operation)]

def mixed : Shape := record
  [("chunks", list chunk), ("immediate_ops", list operation),
    ("confirm", either [null, confirmation]), ("pending_ops", list operation)]

/-! ## what is written has its shape -/

theorem fits_oneOf {w : String} {words : List String} (h : w ∈ words) :
    (oneOf words).fits (.ofText w.toList) = true :=
  fits_either (List.mem_map_of_mem h) (fits_word _)

theorem fits_tagged {key tag : String} {keys : List (String × Shape)} {fs : List (String × Json)}
    (h : (record keys).fits (.record fs) = true) :
    (tagged key tag keys).fits (.record ((key, .ofText tag.toList) :: fs)) = true :=
  fits_record_cons (fits_word _) h

theorem fits_operation (op : Operation) : operation.fits op.toJson = true := by
  cases op with
  | format s a =>
    have hs : (oneOf ["bold", "italic", "underline"]).fits (.ofText s.name) = true := by
      cases s with
      | bold => exact fits_oneOf (w := "bold") (by decide)
      | italic => exact fits_oneOf (w := "italic") (by decide)
      | underline => exact fits_oneOf (w := "underline") (by decide)
    have ha : (oneOf ["make", "unmake", "toggle"]).fits (.ofText a.name) = true := by
      cases a with
      | make => exact fits_oneOf (w := "make") (by decide)
      | unmake => exact fits_oneOf (w := "unmake") (by decide)
      | toggle => exact fits_oneOf (w := "toggle") (by decide)
    exact fits_either List.mem_cons_self
      (fits_tagged (fits_record_cons hs (fits_record_cons ha fits_record_nil)))
  | insertText t =>
    exact fits_either (.tail _ (.head _))
      (fits_tagged (fits_record_cons (fits_ofText t) fits_record_nil))
  | insertNewLine => exact fits_either (.tail _ (.tail _ (.head _))) (fits_tagged fits_record_nil)
  | insertNewParagraph =>
    exact fits_either (.tail _ (.tail _ (.tail _ (.head _)))) (fits_tagged fits_record_nil)
  | deleteLastWord => rfl
  | deleteLastSentence => rfl
  | undo => rfl
  | redo => rfl

theorem fits_operations (ops : List Operation) :
    (list operation).fits (Operation.listToJson ops) = true := fits_list fits_operation ops

theorem fits_reply (r : Reply) : reply.fits r.toJson = true := by
  cases r with
  | insert t =>
    exact fits_either (.head _) (fits_tagged (fits_record_cons (fits_ofText t) fits_record_nil))
  | run ops c =>
    have hc : (oneOf ["high", "medium"]).fits (.ofText c.name) = true := by
      cases c with
      | high => exact fits_oneOf (w := "high") (by decide)
      | medium => exact fits_oneOf (w := "medium") (by decide)
    exact fits_either (.tail _ (.head _)) (fits_tagged
      (fits_record_cons (fits_operations ops) (fits_record_cons hc fits_record_nil)))
  | confirm ops prompt =>
    exact fits_either (.tail _ (.tail _ (.head _))) (fits_tagged
      (fits_record_cons (fits_operations ops) (fits_record_cons (fits_ofText prompt)
        fits_record_nil)))

theorem fits_chunk (c : Chunk) : chunk.fits c.toJson = true := by
  cases c with
  | text t =>
    exact fits_either (.head _) (fits_tagged (fits_record_cons (fits_ofText t) fits_record_nil))
  | command source r =>
    exact fits_either (.tail _ (.head _)) (fits_tagged
      (fits_record_cons (fits_ofText source) (fits_record_cons (fits_reply r) fits_record_nil)))

theorem fits_confirmation (c : Confirmation) : confirmation.fits c.toJson = true :=
  fits_record_cons (fits_ofText c.prompt) (fits_record_cons (fits_ofText c.source)
    (fits_record_cons (fits_operations c.pending) (fits_record_cons (fits_operations c.all)
      fits_record_nil)))

theorem fits_mixed (m : Mixed) : mixed.fits m.toJson = true := by
  have hconfirm : (either [null, confirmation]).fits
      ((m.confirmation.map Confirmation.toJson).getD .null) = true := by
    cases m.confirmation with
    | none => exact fits_either (.head _) rfl
    | some c => exact fits_either (.tail _ (.head _)) (fits_confirmation c)
  exact fits_record_cons (fits_list fits_chunk m.chunks)
    (fits_record_cons (fits_operations m.immediate) (fits_record_cons hconfirm
      (fits_record_cons (fits_operations m.pending) fits_record_nil)))

end Shape

/-! ## reading what was written -/

theorem Checked.both_of_ok {α β γ : Type} {f : α → β → γ} {a : Checked α} {b : Checked β} {x : α}
    {y : β} (ha : a = .ok x) (hb : b = .ok y) : both f a b = .ok (f x y) := by
  rw [ha, hb, both_ok]

namespace Json

theorem key_injective {s t : String} (h : key s = key t) : s = t := by
  have htexts := congrArg Units.decode? h
  rw [key, key, Units.decode?_encode, Units.decode?_encode] at htexts
  exact String.toList_inj.1 (Option.some.inj htexts)

/-- the fields of a record by their names -/
theorem get?_record (name : String) (fs : List (String × Json)) :
    get? (key name) (fs.map fun f => (key f.1, f.2)) = fs.lookup name := by
  induction fs with
  | nil => rfl
  | cons f fs ih =>
    obtain ⟨name', v⟩ := f
    rw [List.map_cons, get?, List.lookup_cons, ih]
    by_cases h : name = name'
    · rw [if_pos (congrArg key h.symm), beq_iff_eq.2 h]
    · rw [if_neg fun hkeys => h (key_injective hkeys).symm, beq_eq_false_iff_ne.2 h]

end Json

namespace Schema

section
variable {α : Type} {name : String} {read : Json → Checked α} {fs : List (String × Json)} {v : Json}
  {a : α}

theorem required_of_lookup (hv : fs.lookup name = some v) (h : read v = .ok a) :
    required name read (fs.map fun f => (Json.key f.1, f.2)) = .ok a := by
  rw [required, Json.get?_record, hv]
  exact Checked.within_eq_ok_iff.2 h

theorem withDefault_of_lookup {default : α} (hv : fs.lookup name = some v) (h : read v = .ok a) :
    withDefault name read default (fs.map fun f => (Json.key f.1, f.2)) = .ok a := by
  rw [withDefault, Json.get?_record, hv]
  exact Checked.within_eq_ok_iff.2 h

theorem ownTag_of_lookup {tag : Text} (hv : fs.lookup name = some (.ofText tag)) :
    ownTag name tag (fs.map fun f => (Json.key f.1, f.2)) = .ok () := by
  refine withDefault_of_lookup hv ?_
  rw [Json.text?_ofText, beq_self_eq_true]
  rfl

/-- a record whose tag is that of one of the variants -/
theorem tagged_of_lookup {variants : List (Variant α)} {x : Variant α} {tag : Text}
    (hv : fs.lookup name = some (.ofText tag))
    (hfind : variants.find? (fun x => some tag == some x.tag) = some x)
    (h : x.fields (fs.map fun f => (Json.key f.1, f.2)) = .ok a) :
    tagged name variants (.record fs) = .ok a := by
  rw [Json.record]
  unfold tagged
  dsimp only
  rw [Json.get?_record, hv]
  dsimp only
  rw [Json.text?_ofText, hfind]
  exact Checked.within_eq_ok_iff.2 h

/-- a value is read from its own name if no value before it has the same one -/
theorem among_name {all : List α} {name : α → Text}
    (h : all.find? (fun b => name b == name a) = some a) :
    among all name (.ofText (name a)) = .ok a := by
  rw [among, Json.text?_ofText, Option.bind_some, h]

theorem listOf_map {write : α → Json} (h : ∀ a, read (write a) = .ok a) (as : List α) :
    listOf read (.arr (as.map write)) = .ok as := by
  have hitems : itemsFrom read 0 (as.map write) = .ok (as.map id) :=
    itemsFrom_map (fun b _ => h b) 0
  rwa [List.map_id] at hitems

end

theorem among_style (s : Style) : among Style.all Style.name (.ofText s.name) = .ok s :=
  among_name (by cases s <;> rfl)

theorem among_action (a : Action) : among Action.all Action.name (.ofText a.name) = .ok a :=
  among_name (by cases a <;> rfl)

theorem among_confidence (c : Confidence) :
    among Confidence.all Confidence.name (.ofText c.name) = .ok c :=
  among_name (by cases c <;> rfl)

/-- an operation that is no more than its tag -/
theorem bare_fields (model : String) {op : Operation} {fs : List (String × Json)}
    (hv : fs.lookup "type" = some (.ofText op.tag)) :
    (bare model op).fields (fs.map fun f => (Json.key f.1, f.2)) = .ok op := by
  show (ownTag "type" op.tag _).map (fun _ => op) = .ok op
  rw [ownTag_of_lookup hv]
  rfl

theorem operation_toJson (op : Operation) : operation op.toJson = .ok op := by
  cases op with
  | format s a =>
    refine tagged_of_lookup rfl rfl (Checked.both_of_ok (ownTag_of_lookup rfl) ?_)
    exact Checked.both_of_ok (required_of_lookup rfl (among_style s))
      (required_of_lookup rfl (among_action a))
  | insertText t =>
    exact tagged_of_lookup rfl rfl
      (Checked.both_of_ok (ownTag_of_lookup rfl) (required_of_lookup rfl (text_ofText t)))
  | insertNewLine => exact tagged_of_lookup rfl rfl (bare_fields _ rfl)
  | insertNewParagraph => exact tagged_of_lookup rfl rfl (bare_fields _ rfl)
  | deleteLastWord => exact tagged_of_lookup rfl rfl (bare_fields _ rfl)
  | deleteLastSentence => exact tagged_of_lookup rfl rfl (bare_fields _ rfl)
  | undo => exact tagged_of_lookup rfl rfl (bare_fields _ rfl)
  | redo => exact tagged_of_lookup rfl rfl (bare_fields _ rfl)

theorem listOf_operation (ops : List Operation) :
    listOf operation (Operation.listToJson ops) = .ok ops := listOf_map operation_toJson ops

theorem reply_toJson (r : Reply) : reply r.toJson = .ok r := by
  cases r with
  | insert t =>
    exact tagged_of_lookup rfl rfl
      (Checked.both_of_ok (ownTag_of_lookup rfl) (required_of_lookup rfl (text_ofText t)))
  | run ops c =>
    refine tagged_of_lookup rfl rfl (Checked.both_of_ok (ownTag_of_lookup rfl) ?_)
    exact Checked.both_of_ok (withDefault_of_lookup rfl (listOf_operation ops))
      (withDefault_of_lookup rfl (among_confidence c))
  | confirm ops prompt =>
    refine tagged_of_lookup rfl rfl (Checked.both_of_ok (ownTag_of_lookup rfl) ?_)
    exact Checked.both_of_ok (required_of_lookup rfl (listOf_operation ops))
      (required_of_lookup rfl (text_ofText prompt))

theorem chunk_toJson (c : Chunk) : chunk c.toJson = .ok c := by
  cases c with
  | text t =>
    exact tagged_of_lookup rfl rfl
      (Checked.both_of_ok (ownTag_of_lookup rfl) (required_of_lookup rfl (text_ofText t)))
  | command source r =>
    refine tagged_of_lookup rfl rfl (Checked.both_of_ok (ownTag_of_lookup rfl) ?_)
    exact Checked.both_of_ok (required_of_lookup rfl (text_ofText source))
      (required_of_lookup rfl (reply_toJson r))

theorem confirmation_toJson (c : Confirmation) : confirmation c.toJson = .ok c := by
  show confirmationFields _ = _
  refine Checked.both_of_ok (Checked.both_of_ok ?_ ?_) (Checked.both_of_ok ?_ ?_)
  · exact required_of_lookup rfl (text_ofText c.prompt)
  · exact required_of_lookup rfl (text_ofText c.source)
  · exact required_of_lookup rfl (listOf_operation c.pending)
  · exact required_of_lookup rfl (listOf_operation c.all)

theorem orNull_confirmation (c : Option Confirmation) :
    orNull confirmation ((c.map Confirmation.toJson).getD .null) = .ok c := by
  cases c with
  | none => rfl
  | some c =>
    show (confirmation c.toJson).map some = _
    rw [confirmation_toJson]
    rfl

theorem mixed_toJson (m : Mixed) : mixed m.toJson = .ok m := by
  show mixedFields _ = _
  refine Checked.both_of_ok (Checked.both_of_ok ?_ ?_) (Checked.both_of_ok ?_ ?_)
  · exact withDefault_of_lookup rfl (listOf_map chunk_toJson m.chunks)
  · exact withDefault_of_lookup rfl (listOf_operation m.immediate)
  · exact withDefault_of_lookup rfl (orNull_confirmation m.confirmation)
  · exact withDefault_of_lookup rfl (listOf_operation m.pending)

/-! ## normal forms -/

/-- every value is read as it was written; and whatever else is read as a value, writing that value
has the declared keys alone and reads the same -/
structure Normalizes {α : Type} (read : Json → Checked α) (write : α → Json) (shape : Shape) :
    Prop where
  read_write : ∀ a, read (write a) = .ok a
  write_read : ∀ v a, read v = .ok a → read (write a) = read v ∧ shape.fits (write a) = true

theorem normalizes {α : Type} {read : Json → Checked α} {write : α → Json} {shape : Shape}
    (hread : ∀ a, read (write a) = .ok a) (hfits : ∀ a, shape.fits (write a) = true) :
    Normalizes read write shape where
  read_write := hread
  write_read _ a hv := ⟨(hread a).trans hv.symm, hfits a⟩

/-- **Validation undoes dumping.**  Operations, replies, chunks and compiled dictation are read as
they were written.  A value read from other JSON, with further keys, keys left out or keys in
another order, is written with the declared keys of its kind at every level, and read again. -/
theorem models_normalize :
    Normalizes operation Operation.toJson Shape.operation ∧
      Normalizes reply Reply.toJson Shape.reply ∧
      Normalizes chunk Chunk.toJson Shape.chunk ∧
      Normalizes mixed Mixed.toJson Shape.mixed :=
  ⟨normalizes operation_toJson Shape.fits_operation, normalizes reply_toJson Shape.fits_reply,
    normalizes chunk_toJson Shape.fits_chunk, normalizes mixed_toJson Shape.fits_mixed⟩

end Schema
end Dictation
