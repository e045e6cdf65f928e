import Dictation.Mixed

/-!
# What a reply may do

The phrases of the table are the only way from speech to an operation, so what an editor is ever
asked to do can be read off the table.

* `Command.Answer`     what a phrase can be answered, a case for each kind of row of the tables;
* `Operation.isTame`   runs without approval: no sentence is deleted, no history is needed;
* `Reply.Gated`        what runs at once is tame, and what asks first deletes one sentence;
* `interpret_gated`    every utterance has such a reply, and so has every chunk
                       (`Chunk.gated_of_mem`).
-/

namespace Dictation

namespace Operation

/-- may run without approval -/
def isTame : Operation → Bool
  | deleteLastSentence => false
  | undo => false
  | redo => false
  | _ => true

theorem isTame_iff (op : Operation) :
    op.isTame = true ↔ op ≠ deleteLastSentence ∧ op ≠ undo ∧ op ≠ redo := by
  cases op <;> simp [isTame]

theorem count_deleteLastSentence_of_tame {ops : List Operation}
    (h : ∀ op ∈ ops, op.isTame = true) : ops.count .deleteLastSentence = 0 := by
  rw [List.count_eq_zero]
  intro hm
  exact absurd (h _ hm) (by decide)

end Operation

namespace Reply

def Gated : Reply → Prop
  | .insert _ => True
  | .run ops _ => ∀ op ∈ ops, op.isTame = true
  | .confirm ops _ => ops = [.deleteLastSentence]

instance : DecidablePred Gated
  | .insert _ => inferInstanceAs (Decidable True)
  | .run ops _ => inferInstanceAs (Decidable (∀ op ∈ ops, op.isTame = true))
  | .confirm ops _ => inferInstanceAs (Decidable (ops = [.deleteLastSentence]))

/-- the words themselves -/
def isLiteral : Reply → Bool
  | .insert _ => true
  | _ => false

end Reply

namespace Command

theorem mem_of_lookup {α : Type} {table : List (Text × α)} {t : Text} {a : α}
    (h : table.lookup t = some a) : (t, a) ∈ table := by
  obtain ⟨before, after, rfl, _⟩ := List.lookup_eq_some_iff.1 h
  simp

/-- the replies to phrases: a case for each kind of row of the two tables, and the reply to a phrase
that is in neither -/
inductive Answer : Reply → Prop
  | format (style : Style) (action : Action) : Answer (.run [.format style action] .high)
  | deleteLastWord : Answer (.run [.deleteLastWord] .high)
  | deleteLastSentence : Answer (.confirm [.deleteLastSentence] deleteLastSentencePrompt)
  | mark {p : Text × Text} (h : p ∈ punctuation) : Answer (.run [.insertText p.2] .high)
  | newLine : Answer (.run [.insertNewLine] .high)
  | newParagraph : Answer (.run [.insertNewParagraph] .high)
  | unknown : Answer unknown

theorem answer_of_mem_formats {f : Text × Operation} (h : f ∈ formats) :
    Answer (.run [f.2] .high) := by
  obtain ⟨action, -, hf⟩ := List.mem_flatMap.1 h
  obtain ⟨s, -, rfl⟩ := List.mem_map.1 hf
  exact .format s.2 action

theorem answer_of_mem_replies {r : Text × Reply} (h : r ∈ replies) : Answer r.2 := by
  simp only [replies, layout, List.mem_append, List.mem_map, List.mem_cons, List.not_mem_nil,
    or_false] at h
  rcases h with ((rfl | rfl) | ⟨p, hp, rfl⟩) | ⟨l, rfl | rfl, rfl⟩
  · exact .deleteLastWord
  · exact .deleteLastSentence
  · exact .mark hp
  · exact .newLine
  · exact .newParagraph

/-- **What a phrase can be answered.** -/
theorem answer_parse (phrase : Text) : Answer (parse phrase) := by
  unfold parse
  cases hf : formats.lookup (dropLineEnd phrase) with
  | some op => exact answer_of_mem_formats (mem_of_lookup hf)
  | none =>
    cases hr : replies.lookup phrase with
    | some r => exact answer_of_mem_replies (mem_of_lookup hr)
    | none => exact .unknown

/-- what holds of the answers to phrases, of literal text and of no operations holds of every
reply -/
theorem interpret_of_answer {P : Reply → Prop} (hinsert : ∀ t, P (.insert t))
    (hnothing : P (.run [] .high)) (hanswer : ∀ {r}, Answer r → P r) (ctx : Context)
    (t : Text) : P (interpret ctx t) := by
  unfold interpret
  split
  · exact hinsert t
  · exact hnothing
  · exact hanswer (answer_parse _)

theorem Answer.gated {r : Reply} (h : Answer r) : r.Gated := by
  cases h with
  | unknown => exact fun op hop => absurd hop List.not_mem_nil
  | deleteLastSentence => rfl
  | _ => exact List.forall_mem_singleton.2 rfl

/-- no phrase is read as literal text -/
theorem Answer.not_literal {r : Reply} (h : Answer r) : r.isLiteral = false := by
  cases h with
  | _ => rfl

/-- only an utterance without a trigger is literal text -/
theorem eq_of_interpret_eq_insert {ctx : Context} {t u : Text} (h : interpret ctx t = .insert u) :
    u = t := by
  unfold interpret at h
  split at h
  · cases h
    rfl
  · cases h
  · next c r _ =>
    have hp := (answer_parse (c :: r)).not_literal
    rw [h] at hp
    cases hp

theorem interpret_gated (ctx : Context) (t : Text) : (interpret ctx t).Gated :=
  interpret_of_answer (fun _ => trivial) (fun _ h => absurd h List.not_mem_nil) Answer.gated ctx t

end Command

namespace Chunk

def Gated : Chunk → Prop
  | .text _ => True
  | .command _ r => r.Gated

/-- a chunk is text, or a command with the reply to it -/
theorem exists_of_mem_ofSegment {ctx : Context} {s : Segment} {c : Chunk}
    (h : c ∈ ofSegment ctx s) :
    (∃ t, c = .text t) ∨ ∃ source, c = .command source (Command.interpret ctx source) := by
  unfold ofSegment at h
  split at h
  · dsimp only at h
    split at h
    · exact absurd h List.not_mem_nil
    · exact .inl ⟨_, List.mem_singleton.1 h⟩
  · exact .inr ⟨_, List.mem_singleton.1 h⟩
  · exact .inl ⟨_, List.mem_singleton.1 h⟩

theorem gated_of_mem_ofSegment {ctx : Context} {s : Segment} {c : Chunk}
    (h : c ∈ ofSegment ctx s) : c.Gated := by
  obtain ⟨t, rfl⟩ | ⟨source, rfl⟩ := exists_of_mem_ofSegment h
  · exact trivial
  · exact Command.interpret_gated ctx source

/-- every chunk of an utterance has a reply of the table -/
theorem gated_of_mem {ctx : Context} {t : Text} {c : Chunk} (h : c ∈ ofText ctx t) : c.Gated := by
  obtain ⟨s, _, hs⟩ := List.mem_flatMap.1 h
  exact gated_of_mem_ofSegment hs

end Chunk
end Dictation
