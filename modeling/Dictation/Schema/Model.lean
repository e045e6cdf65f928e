import Dictation.Schema.Checked
import Dictation.Schema.Dump

/-!
# JSON as the library's values

The readers of operations, replies, chunks, compiled dictation and contexts.  Keys that a record
does not have are ignored.

* `Schema.operation`, `Schema.reply`, `Schema.chunk`   tagged records;
* `Schema.mixed`, `Schema.confirmation`, `Schema.context`   records of one kind;
* `Schema.models`   every reader by the name of its model, with the value written again.
-/

namespace Dictation.Schema

/-! ## operations -/

def formatFields (fs : Fields) : Checked Operation :=
  Checked.both (fun _ op => op) (ownTag "type" "format".toList fs)
    (Checked.both Operation.format (required "style" (among Style.all Style.name) fs)
      (required "action" (among Action.all Action.name) fs))

def insertTextFields (fs : Fields) : Checked Operation :=
  Checked.both (fun _ t => .insertText t) (ownTag "type" "insertText".toList fs)
    (required "text" text fs)

/-- an operation that has nothing but its tag -/
def bare (model : String) (op : Operation) : Variant Operation :=
  ⟨op.tag, model, fun fs => (ownTag "type" op.tag fs).map fun _ => op⟩

def operations : List (Variant Operation) :=
  [⟨"format".toList, "Format", formatFields⟩,
   ⟨"insertText".toList, "InsertText", insertTextFields⟩,
   bare "InsertNewLine" .insertNewLine,
   bare "InsertNewParagraph" .insertNewParagraph,
   bare "DeleteLastWord" .deleteLastWord,
   bare "DeleteLastSentence" .deleteLastSentence,
   bare "Undo" .undo,
   bare "Redo" .redo]

def operation : Json → Checked Operation := tagged "type" operations

/-! ## replies -/

def insertFields (fs : Fields) : Checked Reply :=
  Checked.both (fun _ t => .insert t) (ownTag "kind" "insert".toList fs) (required "text" text fs)

def runFields (fs : Fields) : Checked Reply :=
  Checked.both (fun _ r => r) (ownTag "kind" "ops".toList fs)
    (Checked.both Reply.run (withDefault "ops" (listOf operation) [] fs)
      (withDefault "confidence" (among Confidence.all Confidence.name) .high fs))

def confirmFields (fs : Fields) : Checked Reply :=
  Checked.both (fun _ r => r) (ownTag "kind" "confirm".toList fs)
    (Checked.both Reply.confirm (required "ops" (listOf operation) fs) (required "prompt" text fs))

def replies : List (Variant Reply) :=
  [⟨"insert".toList, "InsertParse", insertFields⟩,
   ⟨"ops".toList, "OpsParse", runFields⟩,
   ⟨"confirm".toList, "ConfirmParse", confirmFields⟩]

def reply : Json → Checked Reply := tagged "kind" replies

/-! ## chunks and compiled dictation -/

def textFields (fs : Fields) : Checked Chunk :=
  Checked.both (fun _ t => .text t) (ownTag "kind" "text".toList fs) (required "text" text fs)

def commandFields (fs : Fields) : Checked Chunk :=
  Checked.both (fun _ c => c) (ownTag "kind" "command".toList fs)
    (Checked.both Chunk.command (required "source_text" text fs) (required "parse" reply fs))

def chunks : List (Variant Chunk) :=
  [⟨"text".toList, "TextChunk", textFields⟩, ⟨"command".toList, "CommandChunk", commandFields⟩]

def chunk : Json → Checked Chunk := tagged "kind" chunks

def confirmationFields (fs : Fields) : Checked Confirmation :=
  Checked.both (fun p q => ⟨p.1, p.2, q.1, q.2⟩)
    (Checked.both Prod.mk (required "prompt" text fs) (required "source_text" text fs))
    (Checked.both Prod.mk (required "pending_ops" (listOf operation) fs)
      (required "all_ops" (listOf operation) fs))

def confirmation : Json → Checked Confirmation := record "ConfirmPayload" confirmationFields

def mixedFields (fs : Fields) : Checked Mixed :=
  Checked.both (fun p q => ⟨p.1, p.2, q.1, q.2⟩)
    (Checked.both Prod.mk (withDefault "chunks" (listOf chunk) [] fs)
      (withDefault "immediate_ops" (listOf operation) [] fs))
    (Checked.both Prod.mk (withDefault "confirm" (orNull confirmation) none fs)
      (withDefault "pending_ops" (listOf operation) [] fs))

def mixed : Json → Checked Mixed := record "MixedDictationResult" mixedFields

/-! ## contexts -/

def contextModel : String := "ParseContext"

def triggers (v : Json) : Checked (List Text) := (listOf text v).map Context.triggersFrom

def contextFields (fs : Fields) : Checked Context :=
  Checked.both (fun l p => ⟨l, p.1, p.2⟩) (withDefault "locale" text Context.defaultLocale fs)
    (Checked.both Prod.mk (withDefault "prefixes" triggers Context.defaultTriggers fs)
      (withDefault "asr_cleanup" bool false fs))

def context : Json → Checked Context := record contextModel contextFields

/-- triggers that are no texts are not looked at -/
def contextEvents (fs : Fields) : List Event :=
  match (Json.get? (Json.key "prefixes") fs).map (listOf text) with
  | some (.ok asked) => Context.triggerEvents asked
  | _ => []

theorem contextFields_nil : contextFields [] = .ok Context.default := rfl

/-! ## all models by name -/

section
variable {α : Type}

def written (write : α → Json) (read : Json → Checked α) (v : Json) : Checked Json :=
  (read v).map write

def variantModels (write : α → Json) (vs : List (Variant α)) :
    List (String × (Json → Checked Json)) :=
  vs.map fun v => (v.model, written write v.read)

end

def models : List (String × (Json → Checked Json)) :=
  [("Operation", written Operation.toJson operation), ("CommandParse", written Reply.toJson reply),
   ("Chunk", written Chunk.toJson chunk),
   ("ConfirmPayload", written Confirmation.toJson confirmation),
   ("MixedDictationResult", written Mixed.toJson mixed),
   (contextModel, written Context.toJson context)]
    ++ variantModels Operation.toJson operations ++ variantModels Reply.toJson replies
    ++ variantModels Chunk.toJson chunks

/-- the events of reading a value as a model; only contexts have any -/
def modelEvents (model : String) : Json → List Event
  | .obj fs => if model == contextModel then contextEvents fs else []
  | _ => []

end Dictation.Schema
