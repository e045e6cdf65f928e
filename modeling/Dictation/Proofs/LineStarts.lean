import Dictation.Proofs.Agreement
import Dictation.Proofs.CommandSegments

/-!
# Text at the start of a line

Text that comes right after a line break begins with no blank, whichever way an utterance is
compiled.  Behind the gate this is decided by what the chunk before has left, and a command that was
dropped counts as one that has left something; so there it is said of lines that no dropped command
was spoken into.  A formatting command brings the space back, but no more than that.

* `Text.Flush`, `Text.Spaced`    no blank before a text, and at most one space;
* `Operation.Inserts`            a relation between each inserted text and the operations before it;
* `Operation.StartsWell`         the relation that is kept, `Operation.OpensLines` what it says of
                                 line breaks;
* `Gate.Tracks`                  what a gate knows of the list that is open; `Gate.Starts` of both;
* `Mixed.compile_opens_lines`    whole utterances, in place and behind the gate.
-/

namespace Dictation

/-! ## texts with no blank before them -/

namespace Text

/-- begins with no blank -/
def Flush (t : Text) : Prop := t.head?.any isBlank = false

/-- begins with no blank but for one space -/
def Spaced (t : Text) : Prop := t.Flush ∨ ∃ u : Text, t = ' ' :: u ∧ u.Flush

section
variable {s t : Text}

theorem flush_nil : Flush [] := rfl
theorem flush_cons {c : Char} (h : isBlank c = false) (t : Text) : Flush (c :: t) := h

theorem flush_trimLeft (t : Text) : t.trimLeft.Flush := head?_trimLeft t
theorem flush_trim (t : Text) : t.trim.Flush := head?_trim t

theorem flush_stripLeading (t : Text) : t.stripLeading.Flush := by
  show (t.dropWhile fun c => isBlank c || isAttaching c).head?.any isBlank = false
  cases hd : t.dropWhile fun c => isBlank c || isAttaching c with
  | nil => rfl
  | cons c r =>
    have hc : (isBlank c || isAttaching c) = false :=
      not_of_dropWhile (p := fun c => isBlank c || isAttaching c) hd
    exact (Bool.or_eq_false_iff.1 hc).1

theorem flush_of_usable (h : Context.Usable t) : t.Flush := by
  cases t with
  | nil => exact flush_nil
  | cons c t => exact flush_cons h.head_not_blank t

theorem Flush.of_isPrefix (ht : t.Flush) (h : s <+: t) : s.Flush := by
  cases s with
  | nil => exact flush_nil
  | cons c s =>
    obtain ⟨r, rfl⟩ := h
    exact ht

theorem Flush.append (h : s.Flush) (hne : s ≠ []) (t : Text) : Flush (s ++ t) := by
  obtain ⟨c, r, rfl⟩ := List.exists_cons_of_ne_nil hne
  exact h

theorem Spaced.of_isPrefix (ht : t.Spaced) (h : s <+: t) : s.Spaced := by
  rcases ht with ht | ⟨u, rfl, hu⟩
  · exact .inl (ht.of_isPrefix h)
  · rcases List.prefix_cons_iff.1 h with rfl | ⟨r, rfl, hr⟩
    · exact .inl flush_nil
    · exact .inr ⟨r, rfl, hu.of_isPrefix hr⟩

theorem dropEndWhile_isPrefix (p : Char → Bool) (t : Text) : t.dropEndWhile p <+: t :=
  ⟨_, dropEndWhile_append_cut p t⟩

theorem stripTrailing_isPrefix (t : Text) : t.stripTrailing <+: t := by
  unfold stripTrailing
  dsimp only
  split
  · exact (dropEndWhile_isPrefix _ _).trans (dropEndWhile_isPrefix _ _)
  · exact List.prefix_rfl

end
end Text

/-! ## inserted texts and what is before them -/

namespace Operation

/-- inserts no text that begins with a blank -/
def isFlush : Operation → Bool
  | insertText t => !t.head?.any isBlank
  | _ => true

/-- each inserted text is in a relation to the operations before it -/
def Inserts (P : List Operation → Text → Prop) (ops : List Operation) : Prop :=
  ∀ before t after, ops = before ++ .insertText t :: after → P before t

section
variable {P Q : List Operation → Text → Prop} {ops new : List Operation}

theorem inserts_nil : Inserts P [] := by
  intro before t after h
  exact absurd h.symm (List.append_ne_nil_of_right_ne_nil _ (List.cons_ne_nil _ _))

theorem Inserts.mono (h : Inserts P ops) (hPQ : ∀ before t, P before t → Q before t) :
    Inserts Q ops := fun before t after hsplit => hPQ before t (h before t after hsplit)

theorem Inserts.left (h : Inserts P (ops ++ new)) : Inserts P ops := by
  rintro before t after rfl
  exact h before t (after ++ new) (by simp)

/-- operations that are added, with those before them -/
theorem Inserts.append (h : Inserts P ops)
    (hnew : Inserts (fun before t => P (ops ++ before) t) new) : Inserts P (ops ++ new) := by
  intro before t after hsplit
  rcases List.append_eq_append_iff.1 hsplit with ⟨r, rfl, hr⟩ | ⟨r, rfl, hr⟩
  · exact hnew r t after hr
  · cases r with
    | nil =>
      have hfirst := hnew [] t after hr.symm
      rwa [List.append_nil, List.append_nil] at hfirst
    | cons op r =>
      obtain ⟨rfl, -⟩ := List.cons.inj hr
      exact h before t r rfl

theorem inserts_singleton {t : Text} (h : P [] t) : Inserts P [.insertText t] := by
  intro before u after hsplit
  cases before with
  | nil =>
    obtain ⟨hop, -⟩ := List.cons.inj hsplit
    cases hop
    exact h
  | cons op before =>
    have hlen := congrArg List.length hsplit
    simp only [List.length_append, List.length_cons, List.length_nil] at hlen
    omega

/-- one text that is added -/
theorem Inserts.concat (h : Inserts P ops) {t : Text} (ht : P ops t) :
    Inserts P (ops ++ [.insertText t]) := by
  refine h.append (inserts_singleton ?_)
  rwa [List.append_nil]

/-! ## what is kept -/

/-- the start of an inserted text: at most one space, unless it comes first, and none right after a
line break, unless something was dropped there -/
structure StartsWell (dropped : List Operation → Prop) (before : List Operation) (t : Text) :
    Prop where
  spaced : before ≠ [] → t.Spaced
  flush : before.getLast?.any breaksLine = true → t.Flush ∨ dropped before

variable {dropped dropped' : List Operation → Prop} {before : List Operation} {t : Text}

theorem startsWell_of_flush (h : t.Flush) : StartsWell dropped before t :=
  ⟨fun _ => .inl h, fun _ => .inl h⟩

theorem StartsWell.mono (h : StartsWell dropped before t)
    (hmono : ∀ ops, dropped ops → dropped' ops) : StartsWell dropped' before t :=
  ⟨h.spaced, fun hbreak => (h.flush hbreak).imp_right (hmono before)⟩

theorem StartsWell.of_isPrefix {u : Text} (h : StartsWell dropped before t) (hu : u <+: t) :
    StartsWell dropped before u :=
  ⟨fun hne => (h.spaced hne).of_isPrefix hu,
    fun hbreak => (h.flush hbreak).imp_left fun ht => ht.of_isPrefix hu⟩

theorem inserts_of_flush (hP : ∀ before t, t.Flush → P before t)
    (h : ∀ op ∈ ops, op.isFlush = true) : Inserts P ops := by
  rintro before t after rfl
  have ht := h (.insertText t) (by simp)
  rw [isFlush, Bool.not_eq_true'] at ht
  exact hP before t ht

theorem Inserts.append_of_flush (h : Inserts (StartsWell dropped) ops)
    (hnew : ∀ op ∈ new, op.isFlush = true) : Inserts (StartsWell dropped) (ops ++ new) :=
  h.append (inserts_of_flush (fun _ _ => startsWell_of_flush) hnew)

/-- what the texts at the start of lines begin with: no blank right after a line break, unless
something was dropped there, and at most one space after formatting commands -/
def OpensLines (dropped : List Operation → Prop) (ops : List Operation) : Prop :=
  ∀ before formats t after, ops = before ++ (formats ++ .insertText t :: after) →
    before.getLast?.any breaksLine = true → (∀ f ∈ formats, f.isFormat = true) →
      (formats = [] → t.Flush ∨ dropped before) ∧ t.Spaced

theorem Inserts.opensLines (h : Inserts (StartsWell dropped) ops) : OpensLines dropped ops := by
  intro before formats t after hsplit hbreak _
  rw [← List.append_assoc] at hsplit
  have hstart := h _ t after hsplit
  refine ⟨fun hformats => ?_, hstart.spaced fun hnil => ?_⟩
  · rw [hformats, List.append_nil] at hstart
    exact hstart.flush hbreak
  · rw [(List.append_eq_nil_iff.1 hnil).1] at hbreak
    cases hbreak

end
end Operation

/-! ## replies -/

namespace Reply

/-- what runs is at most one operation, and inserts no text that begins with a blank -/
def Brief : Reply → Prop
  | .insert _ => True
  | .run ops _ => ops.length ≤ 1 ∧ ∀ op ∈ ops, op.isFlush = true
  | .confirm _ _ => True

instance : DecidablePred Brief
  | .insert _ => inferInstanceAs (Decidable True)
  | .run ops _ => inferInstanceAs (Decidable (ops.length ≤ 1 ∧ ∀ op ∈ ops, op.isFlush = true))
  | .confirm _ _ => inferInstanceAs (Decidable True)

end Reply

namespace Command

theorem marks_flush : ∀ p ∈ punctuation, (Operation.insertText p.2).isFlush = true := by decide

theorem Answer.brief {r : Reply} (h : Answer r) : r.Brief := by
  have hone {op : Operation} (hop : op.isFlush = true) : (Reply.run [op] .high).Brief :=
    ⟨Nat.le_refl 1, List.forall_mem_singleton.2 hop⟩
  cases h with
  | unknown => exact ⟨Nat.zero_le 1, fun op hop => absurd hop List.not_mem_nil⟩
  | deleteLastSentence => trivial
  | mark hp => exact hone (marks_flush _ hp)
  | _ => exact hone rfl

theorem interpret_brief (ctx : Context) (t : Text) : (interpret ctx t).Brief :=
  interpret_of_answer (P := Reply.Brief) (fun _ => trivial)
    ⟨Nat.zero_le 1, fun _ hop => absurd hop List.not_mem_nil⟩ Answer.brief ctx t

end Command

/-! ## in place -/

namespace Inline
open Operation

section
variable {dropped : List Operation → Prop} {ops : List Operation}

theorem separatorAfter_of_breaksLine {last : Operation} (h : last.breaksLine = true) (t : Text) :
    separatorAfter last t = [] := by
  cases last with
  | insertNewLine => rfl
  | insertNewParagraph => rfl
  | _ => cases h

/-- what stands before a text is nothing or one space, and nothing at the start of a line -/
theorem startsWell_placed (ops : List Operation) (w : Text) :
    StartsWell dropped ops (placed ops w) := by
  unfold placed
  split
  · next hnone =>
    obtain rfl := List.getLast?_eq_none_iff.1 hnone
    exact ⟨fun hne => absurd rfl hne, fun hbreak => by cases hbreak⟩
  · next last hlast =>
    have hflush := Text.flush_trimLeft w
    refine ⟨fun _ => ?_, fun hbreak => ?_⟩
    · rcases separatorAfter_eq_nil_or last w.trimLeft with h | h
      · rw [h]
        exact .inl hflush
      · rw [h]
        exact .inr ⟨w.trimLeft, rfl, hflush⟩
    · rw [hlast, Option.any_some] at hbreak
      rw [separatorAfter_of_breaksLine hbreak]
      exact .inl hflush

theorem inserts_appendText (h : Inserts (StartsWell dropped) ops) (t : Text) :
    Inserts (StartsWell dropped) (appendText ops t) := by
  rw [appendText_eq]
  split
  · exact h
  · exact h.concat (startsWell_placed ops t)

/-- **One segment.** -/
theorem inserts_step (h : Inserts (StartsWell dropped) ops) (ctx : Context) (s : Segment) :
    Inserts (StartsWell dropped) (step ctx ops s) := by
  unfold step
  cases s.kind with
  | text => exact inserts_appendText h _
  | command trigger phrase _ =>
    have hbrief := Command.interpret_brief ctx (spoken trigger phrase)
    dsimp only
    cases hr : Command.interpret ctx (spoken trigger phrase) with
    | insert t => exact inserts_appendText h t
    | run new confidence =>
      rw [hr] at hbrief
      exact h.append_of_flush hbrief.2
    | confirm asked prompt => exact inserts_appendText h phrase
  | trigger => exact inserts_appendText h _

theorem inserts_compile (ctx : Context) (t : Text) :
    Inserts (StartsWell dropped) (compile ctx t) := by
  have hfold (ss : List Segment) (ops : List Operation) (h : Inserts (StartsWell dropped) ops) :
      Inserts (StartsWell dropped) (ss.foldl (step ctx) ops) := by
    induction ss generalizing ops with
    | nil => exact h
    | cons s ss ih => exact ih _ (inserts_step h ctx s)
  exact hfold _ [] inserts_nil

end
end Inline

/-! ## behind the gate -/

namespace Chunk

/-- a command that nothing comes of -/
def isDropped : Chunk → Bool
  | .command _ (.run [] _) => true
  | _ => false

/-- no text of the chunk begins with a blank -/
def Flush : Chunk → Prop
  | .text t => t.Flush
  | .command _ (.insert t) => t.Flush
  | .command _ r => r.Brief

theorem flush_of_mem_ofSegment {ctx : Context} (husable : ∀ u ∈ ctx.triggers, Context.Usable u)
    {s : Segment} (hs : s.Found ctx.triggers) {c : Chunk} (hc : c ∈ ofSegment ctx s) :
    c.Flush := by
  obtain ⟨start, source, kind⟩ := s
  cases kind with
  | text =>
    unfold ofSegment at hc
    dsimp only at hc
    split at hc
    · exact absurd hc List.not_mem_nil
    · rw [List.mem_singleton.1 hc]
      unfold dictated
      split
      · exact Text.flush_stripLeading _
      · exact Text.flush_trim _
  | command heard phrase corrected =>
    have hheard := hs.1.usable husable
    have hbrief := Command.interpret_brief ctx (Inline.spoken heard phrase)
    rw [List.mem_singleton.1 hc]
    cases hr : Command.interpret ctx (Inline.spoken heard phrase) with
    | insert t =>
      obtain rfl := Command.eq_of_interpret_eq_insert hr
      exact (Text.flush_of_usable hheard).append hheard.1 _
    | run ops confidence =>
      rw [hr] at hbrief
      exact hbrief
    | confirm ops prompt => exact trivial
  | trigger =>
    rw [List.mem_singleton.1 hc]
    exact Text.flush_of_usable (hs.usable husable)

end Chunk

namespace Gate
open Operation

/-- what a gate knows of the operations in the list that is open -/
structure Tracks (dropped : List Operation → Prop) (trail : Trail) (ops : List Operation) :
    Prop where
  inserts : Inserts (StartsWell dropped) ops
  line : ops.getLast?.any breaksLine = true → trail = .line ∨ dropped ops

section
variable {dropped dropped' : List Operation → Prop} {trail : Trail} {ops new : List Operation}

theorem tracks_nil : Tracks dropped trail [] := ⟨inserts_nil, fun h => by cases h⟩

/-- a text with a space before it, unless a line or everything begins with it -/
theorem Tracks.addText (h : Tracks dropped trail ops) {t : Text} (ht : t.Flush) :
    Tracks dropped .text
      (ops ++ [.insertText (if trail = .nothing ∨ trail = .line then t else ' ' :: t)]) where
  inserts := by
    refine h.inserts.concat ⟨fun _ => ?_, fun hbreak => ?_⟩
    · split
      · exact .inl ht
      · exact .inr ⟨t, rfl, ht⟩
    · rcases h.line hbreak with hline | hdropped
      · rw [if_pos (.inr hline)]
        exact .inl ht
      · exact .inr hdropped
  line hbreak := by
    rw [List.getLast?_concat] at hbreak
    cases hbreak

/-- what runs, if anything does -/
theorem Tracks.add (h : Tracks dropped trail ops) (hlen : new.length ≤ 1)
    (hflush : ∀ op ∈ new, op.isFlush = true) (hnil : new = [] → dropped ops) :
    Tracks dropped (trailOf new) (ops ++ new) where
  inserts := h.inserts.append_of_flush hflush
  line hbreak := by
    match new, hlen with
    | [], _ =>
      rw [List.append_nil]
      exact .inr (hnil rfl)
    | [op], _ =>
      rw [List.getLast?_concat, Option.any_some] at hbreak
      left
      rw [trailOf, isLineBreak, if_pos hbreak]

theorem Tracks.unpunctuate (h : Tracks dropped trail ops) :
    Tracks dropped trail (unpunctuate ops) := by
  rcases unpunctuate_cases ops with heq | ⟨rest, t, rfl, heq⟩
  · rwa [heq]
  · rw [heq]
    refine ⟨h.inserts.left.concat ?_, fun hbreak => ?_⟩
    · exact (h.inserts rest t [] rfl).of_isPrefix (Text.stripTrailing_isPrefix t)
    · rw [List.getLast?_concat] at hbreak
      cases hbreak

theorem Tracks.mono (h : Tracks dropped trail ops) (hmono : ∀ ops, dropped ops → dropped' ops) :
    Tracks dropped' trail ops :=
  ⟨h.inserts.mono fun _ _ ht => ht.mono hmono, fun hbreak =>
    (h.line hbreak).imp_right (hmono ops)⟩

/-- a chunk that asks for nothing, and the list that is open -/
theorem exists_tracks_step (cleanup : Bool) (g : Gate) {c : Chunk} (hc : c.isDestructive = false)
    (hflush : c.Flush) :
    ∃ f trail, step cleanup g c = { g.modify f with trail := trail } ∧
      ∀ dropped ops, Tracks dropped g.trail ops → (c.isDropped = true → dropped ops) →
        Tracks dropped trail (f ops) := by
  cases c with
  | text t => exact ⟨_, _, rfl, fun dropped ops h _ => h.addText hflush⟩
  | command source r =>
    cases r with
    | insert t => exact ⟨_, _, rfl, fun dropped ops h _ => h.addText hflush⟩
    | run new confidence =>
      have hdropped {dropped : List Operation → Prop} {ops : List Operation}
          (h : (Chunk.command source (.run new confidence)).isDropped = true → dropped ops)
          (hnil : new = []) : dropped ops := h (by rw [hnil]; rfl)
      rw [step_run]
      split
      · next hpunctuation =>
        refine ⟨(· ++ new) ∘ Gate.unpunctuate, trailOf new, by rw [add, modify_modify],
          fun dropped ops h _ => h.unpunctuate.add hflush.1 hflush.2 ?_⟩
        -- a mark is cut off only before a mark
        rintro rfl
        cases hpunctuation
      · exact ⟨(· ++ new), trailOf new, rfl, fun dropped ops h hdrop =>
          h.add hflush.1 hflush.2 (hdropped hdrop)⟩
    | confirm ops prompt => cases hc

end

/-! ## the run of a gate -/

/-- a dropped command was spoken when a list held these operations -/
def DroppedAt (list : Gate → List Operation) (cleanup : Bool) (cs : List Chunk)
    (ops : List Operation) : Prop :=
  ∃ past c rest, cs = past ++ c :: rest ∧ c.isDropped = true ∧ list (run cleanup past) = ops

section
variable {list : Gate → List Operation} {cleanup : Bool} {cs : List Chunk} {c : Chunk}
  {ops : List Operation}

theorem DroppedAt.concat (h : DroppedAt list cleanup cs ops) (c : Chunk) :
    DroppedAt list cleanup (cs ++ [c]) ops := by
  obtain ⟨past, d, rest, rfl, hd, hlist⟩ := h
  exact ⟨past, d, rest ++ [c], by simp, hd, hlist⟩

theorem droppedAt_concat (hc : c.isDropped = true) :
    DroppedAt list cleanup (cs ++ [c]) (list (run cleanup cs)) := ⟨cs, c, [], rfl, hc, rfl⟩

theorem run_concat (cleanup : Bool) (cs : List Chunk) (c : Chunk) :
    run cleanup (cs ++ [c]) = step cleanup (run cleanup cs) c := by
  rw [run, List.foldl_append]
  rfl

/-- what a gate knows of its two lists -/
structure Starts (cleanup : Bool) (cs : List Chunk) : Prop where
  opened : (run cleanup cs).isClosed = false → (run cleanup cs).pending = [] ∧
    Tracks (DroppedAt immediate cleanup cs) (run cleanup cs).trail (run cleanup cs).immediate
  closed : (run cleanup cs).isClosed = true →
    Inserts (StartsWell (DroppedAt immediate cleanup cs)) (run cleanup cs).immediate ∧
    Tracks (DroppedAt pending cleanup cs) (run cleanup cs).trail (run cleanup cs).pending

theorem starts_nil : Starts cleanup [] where
  opened _ := ⟨rfl, tracks_nil⟩
  closed h := by cases h

theorem starts_confirm (h : Starts cleanup cs) (source prompt : Text) :
    Starts cleanup (cs ++ [.command source (.confirm [.deleteLastSentence] prompt)]) where
  opened hopen := by
    rw [run_concat] at hopen
    cases hopen
  closed _ := by
    rw [run_concat, step_confirm]
    dsimp only
    have hflush : ∀ op ∈ [Operation.deleteLastSentence], op.isFlush = true := by decide
    have hline (ops : List Operation) :
        (ops ++ [Operation.deleteLastSentence]).getLast?.any breaksLine = false := by
      rw [List.getLast?_concat]
      rfl
    cases hg : (run cleanup cs).isClosed with
    | false =>
      obtain ⟨hnil, himmediate⟩ := h.opened hg
      rw [hnil]
      refine ⟨himmediate.inserts.mono fun _ _ ht => ht.mono fun _ hd => hd.concat _, ?_⟩
      refine ⟨inserts_nil.append_of_flush hflush, fun hbreak => ?_⟩
      rw [hline] at hbreak
      cases hbreak
    | true =>
      obtain ⟨himmediate, hpending⟩ := h.closed hg
      refine ⟨himmediate.mono fun _ _ ht => ht.mono fun _ hd => hd.concat _, ?_⟩
      refine ⟨(hpending.mono fun _ hd => hd.concat _).inserts.append_of_flush hflush,
        fun hbreak => ?_⟩
      rw [hline] at hbreak
      cases hbreak

/-- **One chunk.** -/
theorem starts_concat (h : Starts cleanup cs) (hgated : c.Gated) (hflush : c.Flush) :
    Starts cleanup (cs ++ [c]) := by
  cases hd : c.isDestructive with
  | true =>
    obtain ⟨source, ops, prompt, rfl⟩ := Chunk.exists_of_isDestructive hd
    obtain rfl : ops = [.deleteLastSentence] := hgated
    exact starts_confirm h source prompt
  | false =>
    obtain ⟨f, trail, hstep, htracks⟩ := exists_tracks_step cleanup (run cleanup cs) hd hflush
    cases hg : (run cleanup cs).isClosed with
    | false =>
      rw [modify_of_open hg] at hstep
      obtain ⟨hnil, himmediate⟩ := h.opened hg
      refine ⟨fun _ => ?_, fun hclosed => ?_⟩
      · rw [run_concat, hstep]
        exact ⟨hnil, htracks _ _ (himmediate.mono fun _ hd => hd.concat c) droppedAt_concat⟩
      · rw [run_concat, hstep] at hclosed
        have hclosed' : (run cleanup cs).isClosed = true := hclosed
        rw [hg] at hclosed'
        cases hclosed'
    | true =>
      rw [modify_of_closed hg] at hstep
      obtain ⟨himmediate, hpending⟩ := h.closed hg
      refine ⟨fun hopen => ?_, fun _ => ?_⟩
      · rw [run_concat, hstep] at hopen
        have hopen' : (run cleanup cs).isClosed = false := hopen
        rw [hg] at hopen'
        cases hopen'
      · rw [run_concat, hstep]
        exact ⟨himmediate.mono fun _ _ ht => ht.mono fun _ hd => hd.concat c,
          htracks _ _ (hpending.mono fun _ hd => hd.concat c) droppedAt_concat⟩

/-- **A run of the gate.** -/
theorem starts_run (cleanup : Bool) {cs : List Chunk} (hgated : ∀ c ∈ cs, c.Gated)
    (hflush : ∀ c ∈ cs, c.Flush) : Starts cleanup cs := by
  induction cs using List.reverseRecOn with
  | nil => exact starts_nil
  | append_singleton cs c ih =>
    have hcs {P : Chunk → Prop} (h : ∀ x ∈ cs ++ [c], P x) : ∀ x ∈ cs, P x := fun x hx =>
      h x (List.mem_append_left _ hx)
    exact starts_concat (ih (hcs hgated) (hcs hflush)) (hgated c (by simp)) (hflush c (by simp))

theorem Starts.inserts (h : Starts cleanup cs) :
    Inserts (StartsWell (DroppedAt immediate cleanup cs)) (run cleanup cs).immediate ∧
      Inserts (StartsWell (DroppedAt pending cleanup cs)) (run cleanup cs).pending := by
  cases hg : (run cleanup cs).isClosed with
  | false =>
    obtain ⟨hnil, himmediate⟩ := h.opened hg
    rw [hnil]
    exact ⟨himmediate.inserts, inserts_nil⟩
  | true =>
    obtain ⟨himmediate, hpending⟩ := h.closed hg
    exact ⟨himmediate, hpending.inserts⟩

end
end Gate

/-! ## whole utterances -/

namespace Mixed
open Operation

theorem inserts_compile (locale : Text) (asked : List Text) (cleanup : Bool) (t : Text) :
    let m := compile (Context.ofOptions locale asked cleanup) t
    Inserts (StartsWell (Gate.DroppedAt Gate.immediate cleanup m.chunks)) m.immediate ∧
      Inserts (StartsWell (Gate.DroppedAt Gate.pending cleanup m.chunks)) m.pending := by
  have husable := (Context.clean_ofOptions locale asked cleanup).usable
  unfold compile
  dsimp only
  split
  · exact ⟨inserts_nil, inserts_nil⟩
  · refine (Gate.starts_run cleanup (fun c hc => Chunk.gated_of_mem hc) fun c hc => ?_).inserts
    obtain ⟨s, hs, hmem⟩ := List.mem_flatMap.1 hc
    exact Chunk.flush_of_mem_ofSegment husable (Segment.found_of_mem hs) hmem

/-- **Text at the start of a line.**  A text that comes right after a line break begins with no
blank: in place always, and behind the gate unless a command was dropped just after the break.  With
formatting commands between the break and the text, it begins with no more than one space. -/
theorem compile_opens_lines (locale : Text) (asked : List Text) (cleanup : Bool) (t : Text) :
    let ctx := Context.ofOptions locale asked cleanup
    let m := compile ctx t
    OpensLines (fun _ => False) (Inline.compile ctx t) ∧
      OpensLines (Gate.DroppedAt Gate.immediate cleanup m.chunks) m.immediate ∧
      OpensLines (Gate.DroppedAt Gate.pending cleanup m.chunks) m.pending := by
  obtain ⟨himmediate, hpending⟩ := inserts_compile locale asked cleanup t
  exact ⟨(Inline.inserts_compile _ t).opensLines, himmediate.opensLines, hpending.opensLines⟩

/-- no text on a new line begins with a blank, formatting commands before it or not -/
def FlushLines (ops : List Operation) : Prop :=
  ∀ before formats t after, ops = before ++ (formats ++ .insertText t :: after) →
    before.getLast?.any breaksLine = true → (∀ f ∈ formats, f.isFormat = true) → t.Flush

/-- a formatting command brings the space back, in place and behind the gate, and so does a dropped
one behind the gate -/
theorem space_after_line_break :
    ¬ FlushLines (Inline.compile Context.default
        "voicemark new line voicemark make bold hello".toList) ∧
      ¬ FlushLines (compile Context.default
        "voicemark new line voicemark make bold hello".toList).immediate ∧
      ¬ FlushLines (compile Context.default
        "voicemark new line voicemark period hello".toList).immediate := by
  have hblank : ¬ Text.Flush " hello".toList := by
    intro h
    exact absurd (show isBlank ' ' = false from h) (by decide)
  have hinline : Inline.compile Context.default
      "voicemark new line voicemark make bold hello".toList =
        [.insertNewLine, .format .bold .make, .insertText " hello".toList] := by
    -- evaluation is faster on texts that are spelled out
    simp only [String.reduceToList]
    decide +kernel
  have hgate : (compile Context.default
      "voicemark new line voicemark make bold hello".toList).immediate =
        [.insertNewLine, .format .bold .make, .insertText " hello".toList] := by
    simp only [String.reduceToList]
    decide +kernel
  have hdropped : (compile Context.default
      "voicemark new line voicemark period hello".toList).immediate =
        [.insertNewLine, .insertText " hello".toList] := by
    simp only [String.reduceToList]
    decide +kernel
  refine ⟨fun h => hblank ?_, fun h => hblank ?_, fun h => hblank ?_⟩
  · exact h [.insertNewLine] [.format .bold .make] _ [] hinline rfl (by decide)
  · exact h [.insertNewLine] [.format .bold .make] _ [] hgate rfl (by decide)
  · exact h [.insertNewLine] [] _ [] hdropped rfl (by decide)

end Mixed
end Dictation
