import Dictation.Json.Basic
import Dictation.Mixed

/-!
# The library's values as JSON

Every record has its declared keys in their declared order, and a tagged record its tag first.
-/

namespace Dictation

/-- the fields of a record under the program's own keys -/
def Json.record (fs : List (String × Json)) : Json :=
  .obj (fs.map fun f => (Json.key f.1, f.2))

namespace Operation

def toJson (op : Operation) : Json :=
  .record (("type", .ofText op.tag) ::
    match op with
    | format s a => [("style", .ofText s.name), ("action", .ofText a.name)]
    | insertText t => [("text", .ofText t)]
    | _ => [])

def listToJson (ops : List Operation) : Json := .arr (ops.map toJson)

end Operation

def Reply.toJson : Reply → Json
  | .insert t => .record [("kind", .ofText "insert".toList), ("text", .ofText t)]
  | .run ops c =>
    .record [("kind", .ofText "ops".toList), ("ops", Operation.listToJson ops),
      ("confidence", .ofText c.name)]
  | .confirm ops prompt =>
    .record [("kind", .ofText "confirm".toList), ("ops", Operation.listToJson ops),
      ("prompt", .ofText prompt)]

def Chunk.toJson : Chunk → Json
  | .text t => .record [("kind", .ofText "text".toList), ("text", .ofText t)]
  | .command source reply =>
    .record [("kind", .ofText "command".toList), ("source_text", .ofText source),
      ("parse", reply.toJson)]

def Confirmation.toJson (c : Confirmation) : Json :=
  .record [("prompt", .ofText c.prompt), ("source_text", .ofText c.source),
    ("pending_ops", Operation.listToJson c.pending), ("all_ops", Operation.listToJson c.all)]

def Mixed.toJson (m : Mixed) : Json :=
  .record [("chunks", .arr (m.chunks.map Chunk.toJson)),
    ("immediate_ops", Operation.listToJson m.immediate),
    ("confirm", (m.confirmation.map Confirmation.toJson).getD .null),
    ("pending_ops", Operation.listToJson m.pending)]

def Context.toJson (ctx : Context) : Json :=
  .record [("locale", .ofText ctx.locale), ("prefixes", .arr (ctx.triggers.map .ofText)),
    ("asr_cleanup", .bool ctx.cleanup)]

end Dictation
