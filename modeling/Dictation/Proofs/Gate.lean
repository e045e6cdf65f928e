import Dictation.Proofs.Reply

/-!
# The gate before destructive commands

A run over chunks is followed by what the gate knows of the chunks that went through it
(`Gate.Guards`): one lemma for each kind of step (`guards_step`), and from it every run
(`guards_run`).  That nothing after the first destructive command reaches the list that runs at
once needs no such invariant: a closed gate never touches that list again.

* `Chunk.question?`   prompt and source of a chunk that asks for confirmation;
* `Gate.Guards`       the invariant of a run;
* `Mixed.compile_gated`   the gate of a compiled utterance.
-/

namespace Dictation

namespace Chunk

def question? : Chunk → Option (Text × Text)
  | .command source (.confirm _ prompt) => some (prompt, source)
  | _ => none

theorem isSome_question? (c : Chunk) : c.question?.isSome = c.isDestructive := by
  unfold question? isDestructive
  split <;> simp_all

theorem exists_of_isDestructive {c : Chunk} (h : c.isDestructive = true) :
    ∃ source ops prompt, c = .command source (.confirm ops prompt) := by
  unfold isDestructive at h
  split at h
  · exact ⟨_, _, _, rfl⟩
  · cases h

/-- the first question of chunks that delete a sentence or nothing -/
theorem find?_isDestructive {cs : List Chunk} (h : ∀ c ∈ cs, c.Gated) {prompt source : Text}
    (hq : cs.findSome? question? = some (prompt, source)) :
    cs.find? isDestructive = some (.command source (.confirm [.deleteLastSentence] prompt)) := by
  obtain ⟨before, c, after, rfl, hc, hb⟩ := List.findSome?_eq_some_iff.1 hq
  have hnone : before.find? isDestructive = none := by
    rw [List.find?_eq_none]
    intro x hx
    rw [← isSome_question?, hb x hx]
    simp
  have hg : c.Gated := h c (by simp)
  rw [List.find?_append, hnone, Option.none_or, List.find?_cons, ← isSome_question?, hc]
  unfold question? at hc
  split at hc
  · obtain ⟨rfl, rfl⟩ := Prod.mk.inj (Option.some.inj hc)
    rw [show _ = [Operation.deleteLastSentence] from hg]
    rfl
  · cases hc

end Chunk

namespace Gate

/-! ## the list that a step changes -/

theorem modify_of_open {g : Gate} (h : g.isClosed = false) (f : List Operation → List Operation) :
    g.modify f = { g with immediate := f g.immediate } := by
  simp [modify, h]

theorem modify_of_closed {g : Gate} (h : g.isClosed = true)
    (f : List Operation → List Operation) :
    g.modify f = { g with pending := f g.pending } := by
  simp [modify, h]

theorem modify_question (g : Gate) (f : List Operation → List Operation) :
    (g.modify f).question = g.question := by
  unfold modify
  split <;> rfl

theorem modify_modify (g : Gate) (f f' : List Operation → List Operation) :
    (g.modify f).modify f' = g.modify (f' ∘ f) := by
  cases h : g.isClosed with
  | true =>
    have h' : (g.modify f).isClosed = true := by rw [isClosed, modify_question]; exact h
    rw [modify_of_closed h', modify_of_closed h, modify_of_closed h]
    rfl
  | false =>
    have h' : (g.modify f).isClosed = false := by rw [isClosed, modify_question]; exact h
    rw [modify_of_open h', modify_of_open h, modify_of_open h]
    rfl

/-- what unpunctuating does: nothing, or the last text gets shorter -/
theorem unpunctuate_cases (ops : List Operation) :
    unpunctuate ops = ops ∨
      ∃ rest t, ops = rest ++ [.insertText t] ∧
        unpunctuate ops = rest ++ [.insertText t.stripTrailing] := by
  unfold unpunctuate
  split
  · next t h =>
    split
    · refine .inr ⟨ops.dropLast, t, ?_, rfl⟩
      obtain ⟨rest, rfl⟩ := List.getLast?_eq_some_iff.1 h
      rw [List.dropLast_concat]
    · exact .inl rfl
  · exact .inl rfl

/-- a change of a list of operations that brings in no deleted sentence and takes none away -/
structure Keeps (f : List Operation → List Operation) : Prop where
  tame : ∀ ops, (∀ op ∈ ops, op.isTame = true) → ∀ op ∈ f ops, op.isTame = true
  count : ∀ ops, (f ops).count .deleteLastSentence = ops.count .deleteLastSentence
  head : ∀ ops, ops.head? = some .deleteLastSentence →
    (f ops).head? = some .deleteLastSentence

theorem keeps_append {new : List Operation} (h : ∀ op ∈ new, op.isTame = true) :
    Keeps (· ++ new) where
  tame ops hops op hop := by
    rcases List.mem_append.1 hop with hop | hop
    · exact hops op hop
    · exact h op hop
  count ops := by
    rw [List.count_append, Operation.count_deleteLastSentence_of_tame h, Nat.add_zero]
  head ops hops := by
    obtain ⟨op, hop⟩ := List.head?_eq_some_iff.1 hops
    rw [hop]
    rfl

theorem keeps_unpunctuate : Keeps unpunctuate where
  tame ops h := by
    rcases unpunctuate_cases ops with h' | ⟨rest, t, rfl, h'⟩
    · rwa [h']
    · rw [h']
      intro op hop
      rcases List.mem_append.1 hop with hop | hop
      · exact h op (List.mem_append_left _ hop)
      · rw [List.mem_singleton.1 hop]
        rfl
  count ops := by
    rcases unpunctuate_cases ops with h | ⟨rest, t, rfl, h⟩
    · rw [h]
    · rw [h, List.count_append, List.count_append]
      rfl
  head ops h := by
    rcases unpunctuate_cases ops with h' | ⟨rest, t, rfl, h'⟩
    · rw [h', h]
    · cases rest with
      | nil => cases h
      | cons op rest => rw [h']; exact h

theorem Keeps.comp {f f' : List Operation → List Operation} (h : Keeps f) (h' : Keeps f') :
    Keeps (f' ∘ f) where
  tame ops hops := h'.tame _ (h.tame ops hops)
  count ops := (h'.count _).trans (h.count ops)
  head ops hops := h'.head _ (h.head ops hops)

theorem addText_eq (g : Gate) (t : Text) :
    ∃ u, g.addText t = { g.modify (· ++ [.insertText u]) with trail := .text } := ⟨_, rfl⟩

theorem step_run (cleanup : Bool) (g : Gate) (source : Text) (ops : List Operation)
    (confidence : Confidence) :
    step cleanup g (.command source (.run ops confidence)) =
      { (if isPunctuation ops && g.trail == .text && cleanup then g.modify unpunctuate
          else g).add ops with trail := trailOf ops } := rfl

theorem step_confirm (cleanup : Bool) (g : Gate) (source prompt : Text) (ops : List Operation) :
    step cleanup g (.command source (.confirm ops prompt)) =
      { g with
        pending := g.pending ++ ops
        question := some (g.question.getD (prompt, source))
        trail := .command } := rfl

/-- a chunk that asks for nothing changes the list that is open now -/
theorem step_of_not_destructive (cleanup : Bool) (g : Gate) {c : Chunk}
    (hc : c.isDestructive = false) :
    ∃ f trail, step cleanup g c = { g.modify f with trail := trail } ∧ (c.Gated → Keeps f) := by
  have text (t : Text) : ∃ f trail,
      g.addText t = { g.modify f with trail := trail } ∧ (c.Gated → Keeps f) := by
    obtain ⟨u, hu⟩ := addText_eq g t
    exact ⟨_, _, hu, fun _ => keeps_append (by simp [Operation.isTame])⟩
  cases c with
  | text t => exact text t
  | command source r =>
    cases r with
    | insert t => exact text t
    | run ops confidence =>
      rw [step_run]
      split
      · refine ⟨(· ++ ops) ∘ unpunctuate, trailOf ops, ?_, fun h =>
          keeps_unpunctuate.comp (keeps_append h)⟩
        rw [add, modify_modify]
      · exact ⟨_, _, rfl, fun h => keeps_append h⟩
    | confirm ops prompt => cases hc

/-! ## a closed gate -/

theorem isClosed_of_question {g : Gate} {q : Text × Text} (h : g.question = some q) :
    g.isClosed = true := by
  rw [isClosed, h]
  rfl

/-- a closed gate stays closed, and what runs at once stays as it is -/
theorem step_of_closed {g : Gate} (h : g.isClosed = true) (cleanup : Bool) (c : Chunk) :
    (step cleanup g c).isClosed = true ∧ (step cleanup g c).immediate = g.immediate := by
  cases hc : c.isDestructive with
  | true =>
    obtain ⟨source, ops, prompt, rfl⟩ := Chunk.exists_of_isDestructive hc
    exact ⟨rfl, rfl⟩
  | false =>
    obtain ⟨f, trail, hs, -⟩ := step_of_not_destructive cleanup g hc
    rw [hs, modify_of_closed h]
    exact ⟨h, rfl⟩

theorem run_of_closed (cleanup : Bool) (cs : List Chunk) {g : Gate} (h : g.isClosed = true) :
    (cs.foldl (step cleanup) g).immediate = g.immediate := by
  induction cs generalizing g with
  | nil => rfl
  | cons c cs ih =>
    obtain ⟨h1, h2⟩ := step_of_closed h cleanup c
    rw [List.foldl_cons, ih h1, h2]

/-- **What follows the first destructive command changes nothing that runs at once.** -/
theorem immediate_run_takeWhile (cleanup : Bool) (cs : List Chunk) :
    (run cleanup (cs.takeWhile fun c => !c.isDestructive)).immediate =
      (run cleanup cs).immediate := by
  have hcs := cs.takeWhile_append_dropWhile (p := fun c => !c.isDestructive)
  cases hd : cs.dropWhile fun c => !c.isDestructive with
  | nil =>
    rw [hd, List.append_nil] at hcs
    rw [hcs]
  | cons c after =>
    rw [hd] at hcs
    have hc : c.isDestructive = true := by simpa using Text.not_of_dropWhile hd
    obtain ⟨source, ops, prompt, rfl⟩ := Chunk.exists_of_isDestructive hc
    rw [← congrArg (run cleanup) hcs, run, run, List.foldl_append, List.foldl_cons]
    have hclosed : (step cleanup (run cleanup (cs.takeWhile fun c => !c.isDestructive))
        (.command source (.confirm ops prompt))).isClosed = true := rfl
    exact (run_of_closed cleanup after hclosed).symm

/-! ## the invariant of a run -/

/-- what a gate knows of the chunks that went through it -/
structure Guards (g : Gate) (cs : List Chunk) : Prop where
  immediate : ∀ op ∈ g.immediate, op.isTame = true
  question : g.question = cs.findSome? Chunk.question?
  pending_nil : g.isClosed = false → g.pending = []
  pending_head : g.isClosed = true → g.pending.head? = some .deleteLastSentence
  pending_count : g.pending.count .deleteLastSentence = cs.countP Chunk.isDestructive

theorem guards_start : Guards {} [] where
  immediate := fun op h => absurd h List.not_mem_nil
  question := rfl
  pending_nil := fun _ => rfl
  pending_head := fun h => by cases h
  pending_count := rfl

theorem guards_modify {g : Gate} {cs : List Chunk} (h : Guards g cs) {c : Chunk}
    (hc : c.isDestructive = false) {f : List Operation → List Operation} (hf : Keeps f)
    (trail : Trail) : Guards { g.modify f with trail := trail } (cs ++ [c]) := by
  have hq : c.question? = none := by
    rw [← Chunk.isSome_question?] at hc
    exact Option.isNone_iff_eq_none.1 (Option.isSome_eq_false_iff.1 hc)
  have hcount : (cs ++ [c]).countP Chunk.isDestructive = cs.countP Chunk.isDestructive := by
    rw [List.countP_append, List.countP_singleton, hc]
    rfl
  have hfirst : (cs ++ [c]).findSome? Chunk.question? = cs.findSome? Chunk.question? := by
    rw [List.findSome?_append, List.findSome?_singleton, hq, Option.or_none]
  cases hg : g.isClosed with
  | false =>
    rw [modify_of_open hg]
    exact ⟨hf.tame _ h.immediate, hfirst ▸ h.question, h.pending_nil, h.pending_head,
      hcount ▸ h.pending_count⟩
  | true =>
    rw [modify_of_closed hg]
    refine ⟨h.immediate, hfirst ▸ h.question, fun ho => ?_, fun _ => hf.head _ (h.pending_head hg),
      ?_⟩
    · exact absurd (hg.symm.trans ho) (by decide)
    · rw [hcount, ← h.pending_count]
      exact hf.count _

theorem guards_confirm {g : Gate} {cs : List Chunk} (h : Guards g cs) (cleanup : Bool)
    (source prompt : Text) :
    Guards (step cleanup g (.command source (.confirm [.deleteLastSentence] prompt)))
      (cs ++ [.command source (.confirm [.deleteLastSentence] prompt)]) := by
  rw [step_confirm]
  refine ⟨h.immediate, ?_, fun ho => ?_, fun _ => ?_, ?_⟩
  · rw [List.findSome?_append, ← h.question]
    cases g.question <;> rfl
  · cases ho
  · cases hg : g.isClosed with
    | false => rw [h.pending_nil hg]; rfl
    | true =>
      obtain ⟨rest, hr⟩ := List.head?_eq_some_iff.1 (h.pending_head hg)
      rw [hr]
      rfl
  · rw [List.count_append, List.countP_append, h.pending_count]
    rfl

/-- one chunk with a reply of the table -/
theorem guards_step {g : Gate} {cs : List Chunk} (h : Guards g cs) (cleanup : Bool) {c : Chunk}
    (hc : c.Gated) : Guards (step cleanup g c) (cs ++ [c]) := by
  cases hd : c.isDestructive with
  | true =>
    obtain ⟨source, ops, prompt, rfl⟩ := Chunk.exists_of_isDestructive hd
    obtain rfl : ops = [.deleteLastSentence] := hc
    exact guards_confirm h cleanup source prompt
  | false =>
    obtain ⟨f, trail, hs, hf⟩ := step_of_not_destructive cleanup g hd
    rw [hs]
    exact guards_modify h hd (hf hc) trail

theorem guards_foldl {g : Gate} {done : List Chunk} (h : Guards g done) (cleanup : Bool)
    {cs : List Chunk} (hcs : ∀ c ∈ cs, c.Gated) :
    Guards (cs.foldl (step cleanup) g) (done ++ cs) := by
  induction cs generalizing g done with
  | nil => rwa [List.append_nil]
  | cons c cs ih =>
    have hstep := guards_step h cleanup (hcs c List.mem_cons_self)
    have := ih hstep fun c' hc' => hcs c' (List.mem_cons_of_mem _ hc')
    rwa [List.append_assoc] at this

/-- the invariant holds after every run over chunks with replies of the table -/
theorem guards_run (cleanup : Bool) {cs : List Chunk} (h : ∀ c ∈ cs, c.Gated) :
    Guards (run cleanup cs) cs := guards_foldl guards_start cleanup h

end Gate

/-! ## the gate of an utterance -/

namespace Mixed

theorem compile_eq_ofChunks (ctx : Context) (t : Text) :
    ∃ cs, (∀ c ∈ cs, c.Gated) ∧ compile ctx t = ofChunks ctx cs := by
  unfold compile
  dsimp only
  split
  · exact ⟨[], fun c h => absurd h List.not_mem_nil, rfl⟩
  · exact ⟨_, fun c h => Chunk.gated_of_mem h, rfl⟩

theorem confirmation_ofChunks (ctx : Context) (cs : List Chunk) :
    (ofChunks ctx cs).confirmation = (Gate.run ctx.cleanup cs).confirmation := rfl

/-- **The gate of a compiled utterance.**  Nothing that runs at once deletes a sentence; there is
a question exactly if some chunk asks for one, and it is the first one's; what waits for approval
begins with the sentence to delete, and deletes one sentence for each chunk that asks.  Of any
list of chunks, what follows the first one that asks leaves alone what runs at once. -/
theorem compile_gated (ctx : Context) (t : Text) :
    let m := compile ctx t
    .deleteLastSentence ∉ m.immediate ∧
    (m.confirmation = none ↔ ∀ c ∈ m.chunks, c.isDestructive = false) ∧
    (m.confirmation = none → m.pending = []) ∧
    (∀ q, m.confirmation = some q →
      m.pending.head? = some .deleteLastSentence ∧
      m.pending.count .deleteLastSentence = m.chunks.countP Chunk.isDestructive ∧
      m.chunks.find? Chunk.isDestructive =
        some (.command q.source (.confirm [.deleteLastSentence] q.prompt)) ∧
      q.pending = m.pending ∧ q.all = m.immediate ++ m.pending) ∧
    ∀ cs, (ofChunks ctx (cs.takeWhile fun c => !c.isDestructive)).immediate =
      (ofChunks ctx cs).immediate := by
  obtain ⟨cs, hcs, h⟩ := compile_eq_ofChunks ctx t
  have hg := Gate.guards_run ctx.cleanup hcs
  rw [h]
  refine ⟨fun hm => absurd (hg.immediate _ hm) (by decide), ?_, ?_, ?_, fun cs =>
    Gate.immediate_run_takeWhile ctx.cleanup cs⟩
  · rw [confirmation_ofChunks, Gate.confirmation, Option.map_eq_none_iff, hg.question,
      List.findSome?_eq_none_iff]
    exact forall₂_congr fun c _ => by rw [← Chunk.isSome_question?, Option.isSome_eq_false_iff,
      Option.isNone_iff_eq_none]
  · intro hn
    rw [confirmation_ofChunks, Gate.confirmation, Option.map_eq_none_iff] at hn
    exact hg.pending_nil (by rw [Gate.isClosed, hn]; rfl)
  · intro q hq
    rw [confirmation_ofChunks, Gate.confirmation] at hq
    obtain ⟨⟨prompt, source⟩, hfirst, rfl⟩ := Option.map_eq_some_iff.1 hq
    have hfind := Chunk.find?_isDestructive hcs (hg.question.symm.trans hfirst)
    exact ⟨hg.pending_head (Gate.isClosed_of_question hfirst), hg.pending_count, hfind, rfl, rfl⟩

end Mixed
end Dictation
