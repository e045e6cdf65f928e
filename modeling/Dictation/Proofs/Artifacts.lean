import Dictation.Proofs.Leniency
import Dictation.Proofs.LineStarts

/-!
# No artifact is inserted

Clean-up takes the artifacts out of a text before the text is compiled.  Segments are parts of what
is left, and what is put before or behind them has no bracket; so if no artifact is left, no
operation inserts one, in place or behind the gate.  One is left exactly if brackets stand around
artifacts and are one without them.

* `Operation.ArtifactFree`    inserts no text with an artifact in it;
* `Inline.artifactFree_compile`, `Mixed.artifactFree_compile`   texts with no artifact left;
* `Mixed.artifacts_removed`   whole utterances, with clean-up.
-/

namespace Dictation

/-- inserts no text with an artifact in it -/
def Operation.ArtifactFree : Operation → Prop
  | insertText t => ¬ t.HasArtifact
  | _ => True

def Reply.ArtifactFree : Reply → Prop
  | .insert t => ¬ t.HasArtifact
  | .run ops _ => ∀ op ∈ ops, op.ArtifactFree
  | .confirm ops _ => ∀ op ∈ ops, op.ArtifactFree

def Chunk.ArtifactFree : Chunk → Prop
  | .text t => ¬ t.HasArtifact
  | .command _ r => r.ArtifactFree

/-! ## commands -/

namespace Command

theorem marks_no_bracket : ∀ p ∈ punctuation, '[' ∉ p.2 := by decide

theorem phrases_no_bracket : ∀ p ∈ phrases, '[' ∉ p ∧ ']' ∉ p := by decide

theorem Answer.artifactFree {r : Reply} (h : Answer r) : r.ArtifactFree := by
  cases h with
  | unknown => exact fun op hop => absurd hop List.not_mem_nil
  | mark hp =>
    exact List.forall_mem_singleton.2 (Text.not_hasArtifact_of_not_mem (marks_no_bracket _ hp))
  | _ => exact List.forall_mem_singleton.2 trivial

theorem interpret_artifactFree (ctx : Context) {t : Text} (ht : ¬ t.HasArtifact) :
    (interpret ctx t).ArtifactFree := by
  have hcases : (∃ u, interpret ctx t = .insert u) ∨ (interpret ctx t).ArtifactFree :=
    interpret_of_answer (P := fun r => (∃ u, r = .insert u) ∨ r.ArtifactFree)
      (fun u => .inl ⟨u, rfl⟩) (.inr fun _ hop => absurd hop List.not_mem_nil)
      (fun h => .inr h.artifactFree) ctx t
  rcases hcases with ⟨u, hu⟩ | h
  · obtain rfl := eq_of_interpret_eq_insert hu
    rw [hu]
    exact ht
  · exact h

end Command

/-! ## segments -/

namespace Segment

/-- what a segment can bring into the operations -/
structure ArtifactFree (s : Segment) : Prop where
  source : ¬ s.source.HasArtifact
  command {trigger phrase : Text} {corrected : Bool} :
    s.kind = .command trigger phrase corrected →
      ¬ (Inline.spoken trigger phrase).HasArtifact ∧ ¬ phrase.HasArtifact

theorem artifactFree_of_mem {ctx : Context} {t : Text} (ht : ¬ t.HasArtifact) {s : Segment}
    (hs : s ∈ ofText ctx t) : s.ArtifactFree := by
  obtain ⟨htrigger, hsource⟩ := infix_of_cuts (cuts_cut _ [] t) s hs
  refine ⟨fun h => ht (h.of_isInfix hsource), fun {trigger phrase corrected} hk => ?_⟩
  have hfound := found_of_mem hs
  rw [Found, hk] at hfound
  rw [Segment.trigger, hk] at htrigger
  obtain ⟨hopen, hclose⟩ := Command.phrases_no_bracket phrase hfound.2
  refine ⟨fun h => ?_, Text.not_hasArtifact_of_not_mem hopen⟩
  rw [Inline.spoken, Text.hasArtifact_append (by simpa using hclose)] at h
  exact ht (h.of_isInfix (htrigger.isInfix.trans hsource))

end Segment

/-! ## in place -/

namespace Inline

variable {ctx : Context} {ops : List Operation} {s : Segment} {t : Text}

theorem artifactFree_appendText (h : ∀ op ∈ ops, op.ArtifactFree) (ht : ¬ t.HasArtifact) :
    ∀ op ∈ appendText ops t, op.ArtifactFree := by
  have hplaced : ¬ (placed ops t).HasArtifact := by
    have hleft : ¬ t.trimLeft.HasArtifact := fun hart =>
      ht (hart.of_isInfix (List.dropWhile_suffix isBlank).isInfix)
    unfold placed
    split
    · exact ht
    · next last _ =>
      rcases separatorAfter_eq_nil_or last t.trimLeft with hsep | hsep
      · rwa [hsep]
      · rwa [hsep, List.singleton_append, Text.hasArtifact_cons (by decide)]
  rw [appendText_eq]
  split
  · exact h
  · exact List.forall_mem_append.2 ⟨h, List.forall_mem_singleton.2 hplaced⟩

theorem dictated_isInfix (ctx : Context) (t : Text) : dictated ctx t <:+: t := by
  have hright : t.trimRight <:+: t := (Text.dropEndWhile_isPrefix isBlank t).isInfix
  unfold dictated
  split
  · exact (List.dropWhile_suffix _).isInfix.trans hright
  · exact hright

/-- **One segment.** -/
theorem artifactFree_step (h : ∀ op ∈ ops, op.ArtifactFree) (hs : s.ArtifactFree) :
    ∀ op ∈ step ctx ops s, op.ArtifactFree := by
  unfold step
  cases hk : s.kind with
  | text =>
    exact artifactFree_appendText h fun hart =>
      hs.source (hart.of_isInfix (dictated_isInfix ctx s.source))
  | command trigger phrase corrected =>
    obtain ⟨hspoken, hphrase⟩ := hs.command hk
    have hreply := Command.interpret_artifactFree ctx hspoken
    dsimp only
    cases hr : Command.interpret ctx (spoken trigger phrase) with
    | insert t =>
      rw [hr] at hreply
      exact artifactFree_appendText h hreply
    | run new confidence =>
      rw [hr] at hreply
      exact List.forall_mem_append.2 ⟨h, hreply⟩
    | confirm asked prompt => exact artifactFree_appendText h hphrase
  | trigger =>
    refine artifactFree_appendText h ?_
    rw [Text.hasArtifact_append (by decide)]
    exact hs.source

theorem artifactFree_compile (ctx : Context) (ht : ¬ (cleaned ctx t).HasArtifact) :
    ∀ op ∈ compile ctx t, op.ArtifactFree := by
  have hfold (ss : List Segment) (hss : ∀ s ∈ ss, s.ArtifactFree) (ops : List Operation)
      (h : ∀ op ∈ ops, op.ArtifactFree) : ∀ op ∈ ss.foldl (step ctx) ops, op.ArtifactFree := by
    induction ss generalizing ops with
    | nil => exact h
    | cons s ss ih =>
      rw [List.forall_mem_cons] at hss
      exact ih hss.2 _ (artifactFree_step h hss.1)
  exact hfold _ (fun s hs => Segment.artifactFree_of_mem ht hs) [] fun _ hop =>
    absurd hop List.not_mem_nil

end Inline

/-! ## behind the gate -/

namespace Chunk

theorem dictated_isInfix (ctx : Context) (t : Text) : dictated ctx t <:+: t := by
  unfold dictated
  split
  · exact (List.dropWhile_suffix _).isInfix.trans (Text.trim_isInfix t)
  · exact Text.trim_isInfix t

theorem artifactFree_of_mem {ctx : Context} {t : Text} (ht : ¬ t.HasArtifact) {c : Chunk}
    (hc : c ∈ ofText ctx t) : c.ArtifactFree := by
  obtain ⟨s, hs, hc⟩ := List.mem_flatMap.1 hc
  have hfree := Segment.artifactFree_of_mem ht hs
  unfold ofSegment at hc
  split at hc
  · dsimp only at hc
    split at hc
    · exact absurd hc List.not_mem_nil
    · rw [List.mem_singleton.1 hc]
      exact fun hart => hfree.source (hart.of_isInfix (dictated_isInfix ctx s.source))
  · next hk =>
    rw [List.mem_singleton.1 hc]
    exact Command.interpret_artifactFree ctx (hfree.command hk).1
  · rw [List.mem_singleton.1 hc]
    exact hfree.source

end Chunk

namespace Gate

/-- nothing behind the gate or before it inserts an artifact -/
def ArtifactFree (g : Gate) : Prop := ∀ op ∈ g.immediate ++ g.pending, op.ArtifactFree

variable {g : Gate} {new : List Operation} {t : Text}

theorem ArtifactFree.modify (h : g.ArtifactFree) {f : List Operation → List Operation}
    (hf : ∀ ops, (∀ op ∈ ops, op.ArtifactFree) → ∀ op ∈ f ops, op.ArtifactFree) :
    (g.modify f).ArtifactFree := by
  obtain ⟨himmediate, hpending⟩ := List.forall_mem_append.1 h
  unfold Gate.modify
  split
  · exact List.forall_mem_append.2 ⟨himmediate, hf _ hpending⟩
  · exact List.forall_mem_append.2 ⟨hf _ himmediate, hpending⟩

theorem ArtifactFree.add (h : g.ArtifactFree) (hnew : ∀ op ∈ new, op.ArtifactFree) :
    (g.add new).ArtifactFree :=
  h.modify fun _ hops => List.forall_mem_append.2 ⟨hops, hnew⟩

theorem ArtifactFree.addText (h : g.ArtifactFree) (ht : ¬ t.HasArtifact) :
    (g.addText t).ArtifactFree := by
  refine h.add (List.forall_mem_singleton.2 ?_)
  split
  · exact ht
  · show ¬ Text.HasArtifact _
    rwa [Text.hasArtifact_cons (by decide)]

theorem ArtifactFree.unpunctuate (h : g.ArtifactFree) :
    (g.modify unpunctuate).ArtifactFree := by
  refine h.modify fun ops hops => ?_
  rcases unpunctuate_cases ops with heq | ⟨rest, t, rfl, heq⟩
  · rwa [heq]
  · rw [heq]
    obtain ⟨hrest, hlast⟩ := List.forall_mem_append.1 hops
    have ht : ¬ t.HasArtifact := hlast _ List.mem_cons_self
    exact List.forall_mem_append.2 ⟨hrest, List.forall_mem_singleton.2 fun hart =>
      ht (hart.of_isInfix (Text.stripTrailing_isPrefix t).isInfix)⟩

/-- **One chunk.** -/
theorem ArtifactFree.step (h : g.ArtifactFree) (cleanup : Bool) {c : Chunk} (hc : c.ArtifactFree) :
    (step cleanup g c).ArtifactFree := by
  cases c with
  | text t => exact h.addText hc
  | command source r =>
    cases r with
    | insert t => exact h.addText hc
    | run new confidence =>
      rw [step_run]
      split
      · exact h.unpunctuate.add hc
      · exact h.add hc
    | confirm asked prompt =>
      rw [step_confirm]
      obtain ⟨himmediate, hpending⟩ := List.forall_mem_append.1 h
      exact List.forall_mem_append.2 ⟨himmediate, List.forall_mem_append.2 ⟨hpending, hc⟩⟩

theorem artifactFree_run (cleanup : Bool) {cs : List Chunk} (hcs : ∀ c ∈ cs, c.ArtifactFree) :
    (run cleanup cs).ArtifactFree := by
  have hfold (cs : List Chunk) (hcs : ∀ c ∈ cs, c.ArtifactFree) (g : Gate)
      (h : g.ArtifactFree) : (cs.foldl (Gate.step cleanup) g).ArtifactFree := by
    induction cs generalizing g with
    | nil => exact h
    | cons c cs ih =>
      rw [List.forall_mem_cons] at hcs
      exact ih hcs.2 _ (h.step cleanup hcs.1)
  exact hfold cs hcs {} fun _ hop => absurd hop List.not_mem_nil

end Gate

/-! ## whole utterances -/

namespace Mixed

theorem artifactFree_compile (ctx : Context) {t : Text}
    (ht : ¬ (Inline.cleaned ctx t).HasArtifact) :
    ∀ op ∈ (compile ctx t).immediate ++ (compile ctx t).pending, op.ArtifactFree := by
  unfold compile
  dsimp only
  split
  · exact fun op hop => absurd hop List.not_mem_nil
  · exact Gate.artifactFree_run ctx.cleanup fun c hc => Chunk.artifactFree_of_mem ht hc

/-- **Clean-up and artifacts.**  What clean-up leaves of a text has an artifact in it exactly if
brackets stand in the text around artifacts and are one without them, and exactly then a second
pass changes it.  For every other text no operation inserts an artifact, in place or behind the
gate. -/
theorem artifacts_removed (t : Text) :
    (t.stripArtifacts.HasArtifact ↔ t.Nests) ∧
      (t.stripArtifacts.stripArtifacts = t.stripArtifacts ↔ ¬ t.Nests) ∧
      ∀ ctx : Context, ctx.cleanup = true → ¬ t.Nests →
        (∀ op ∈ Inline.compile ctx t, op.ArtifactFree) ∧
          ∀ op ∈ (compile ctx t).immediate ++ (compile ctx t).pending, op.ArtifactFree := by
  refine ⟨Text.hasArtifact_stripArtifacts_iff t, Text.stripArtifacts_stripArtifacts_iff t,
    fun ctx hctx hnests => ?_⟩
  have ht : ¬ (Inline.cleaned ctx t).HasArtifact := by
    rw [Inline.cleaned, if_pos hctx, Text.hasArtifact_stripArtifacts_iff]
    exact hnests
  exact ⟨Inline.artifactFree_compile ctx ht, artifactFree_compile ctx ht⟩

/-- artifacts side by side and an open bracket -/
theorem artifacts_removed_side_by_side :
    let t : Text := "[[BLANK_AUDIO] [ Silence ]hi voicemark comma".toList
    ¬ t.Nests ∧ t.stripArtifacts = "[ hi voicemark comma".toList ∧
      ∀ op ∈ Inline.compile { Context.default with cleanup := true } t, op.ArtifactFree := by
  intro t
  have hstrip : t.stripArtifacts = "[ hi voicemark comma".toList := by decide +kernel
  have hagain : t.stripArtifacts.stripArtifacts = t.stripArtifacts := by
    rw [hstrip]
    decide +kernel
  obtain ⟨-, hfixed, hops⟩ := artifacts_removed t
  have hnests := hfixed.1 hagain
  exact ⟨hnests, hstrip, (hops _ rfl hnests).1⟩

/-- brackets around an artifact are left, and inserted -/
theorem artifact_around_artifact :
    let ctx : Context := { Context.default with cleanup := true }
    let t : Text := "[[a]b]".toList
    t.stripArtifacts.HasArtifact ∧ t.stripArtifacts.stripArtifacts ≠ t.stripArtifacts ∧
      ¬ (∀ op ∈ Inline.compile ctx t, op.ArtifactFree) ∧
      ¬ ∀ op ∈ (compile ctx t).immediate, op.ArtifactFree := by
  intro ctx t
  have hart : Text.IsArtifact "[b]".toList :=
    .intro [] ['b'] [] rfl (List.cons_ne_nil _ _) (by decide +kernel) rfl
  have hhas : Text.HasArtifact "[b]".toList := ⟨_, hart, List.infix_rfl⟩
  have hstrip : t.stripArtifacts = "[b]".toList := by decide +kernel
  have hinline : Inline.compile ctx t = [.insertText "[b]".toList] := by decide +kernel
  have hgate : (compile ctx t).immediate = [.insertText "[b]".toList] := by decide +kernel
  refine ⟨hstrip ▸ hhas, ?_, fun h => ?_, fun h => ?_⟩
  · rw [hstrip]
    decide +kernel
  · rw [hinline] at h
    exact List.forall_mem_singleton.1 h hhas
  · rw [hgate] at h
    exact List.forall_mem_singleton.1 h hhas

end Mixed
end Dictation
