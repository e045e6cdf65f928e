import Dictation.Proofs.Occurrences

/-!
# The segments of a text tile it

A scan goes from one end of a text to the other.  At each step it passes over the text before the
first trigger ahead and makes one segment of that trigger and of the phrase after it, if any.  What
a scan does is said once, as a judgment, and every fact about its segments is read off that.

* `Segment.Cuts`    what is ahead is cut into segments; `cuts_iff`: the scan does so, and no other;
* `Segment.Tiles`   segments that follow each other from an offset to the end of a text;
* `Segment.Placed`  a segment begins with a trigger, or no trigger begins within it;
* `segments_tile`   the tiling of a whole text.
-/

namespace Dictation.Segment

/-! ## the segment of a trigger -/

section
variable (lx : Lexicon) (offset n : Nat) (t : Text)

theorem start_atTrigger : (atTrigger lx offset n t).start = offset := by
  unfold atTrigger
  split <;> rfl

theorem kind_atTrigger : (atTrigger lx offset n t).kind ≠ .text := by
  unfold atTrigger
  split
  · exact Kind.noConfusion
  · exact Kind.noConfusion

theorem trigger_atTrigger : (atTrigger lx offset n t).trigger = t.take (n + 1) := by
  unfold atTrigger
  split <;> rfl

theorem source_prefix : (atTrigger lx offset n t).source <+: t := by
  unfold atTrigger
  split
  · exact List.take_prefix _ _
  · exact List.take_prefix _ _

theorem take_prefix_source : t.take (n + 1) <+: (atTrigger lx offset n t).source := by
  unfold atTrigger
  split
  · exact List.take_prefix_take_left (Nat.le_add_right _ _)
  · exact List.prefix_rfl

end

/-! ## the text before a trigger -/

theorem leading_eq (offset : Nat) (gap rest : Text) :
    leading offset gap.length (gap ++ rest) = leading offset gap.length gap := by
  rw [leading, leading, List.take_left, List.take_length]

theorem mem_leading {offset : Nat} {gap : Text} {s : Segment}
    (h : s ∈ leading offset gap.length gap) : gap ≠ [] ∧ s = ⟨offset, gap, .text⟩ := by
  unfold leading at h
  split at h
  · exact absurd h List.not_mem_nil
  · next hne =>
    rw [List.take_length] at h
    exact ⟨fun hgap => hne (by rw [hgap]; rfl), List.mem_singleton.1 h⟩

theorem leading_of_ne_nil (offset : Nat) {gap : Text} (h : gap ≠ []) :
    leading offset gap.length gap = [⟨offset, gap, .text⟩] := by
  have hpos := List.length_pos_iff.2 h
  rw [leading, if_neg (by omega), List.take_length]

/-! ## what a scan does -/

/-- with `done` behind it, a scan cuts what is ahead into segments -/
inductive Cuts (lx : Lexicon) : Text → Text → List Segment → Prop where
  /-- no trigger begins ahead -/
  | rest {done t : Text} :
      Trigger.Quiet lx.lenient lx.triggers (done ++ t) done.length (done ++ t).length →
      Cuts lx done t (leading done.length t.length t)
  /-- a gap in which no trigger begins, the segment of a trigger, and so on -/
  | trigger {done gap t : Text} {n : Nat} {s : Segment} {ss : List Segment} :
      Trigger.Quiet lx.lenient lx.triggers (done ++ (gap ++ (s.source ++ t))) done.length
        (done ++ gap).length →
      Trigger.tailAt? lx.lenient (done ++ gap).getLast? (s.source ++ t) lx.triggers = some n →
      atTrigger lx (done ++ gap).length n (s.source ++ t) = s →
      Cuts lx (done ++ (gap ++ s.source)) t ss →
      Cuts lx done (gap ++ (s.source ++ t)) (leading done.length gap.length gap ++ s :: ss)

section
variable {lx : Lexicon} {done t : Text} {ss : List Segment}

theorem cut_of_none {offset : Nat} {before : Option Char}
    (h : Trigger.next? lx.lenient lx.triggers before t = none) :
    cut lx offset before t = leading offset t.length t := by
  rw [cut]
  split
  · rfl
  · next hit hn => rw [h] at hn; cases hn

theorem cut_of_next? {offset : Nat} {before : Option Char} {hit : Trigger.Hit}
    (h : Trigger.next? lx.lenient lx.triggers before t = some hit) :
    cut lx offset before t =
      let s := atTrigger lx (offset + hit.skip) hit.tail (t.drop hit.skip)
      leading offset hit.skip t ++
        s :: cut lx s.stop s.source.getLast? ((t.drop hit.skip).drop s.source.length) := by
  rw [cut]
  split
  · next hn => rw [h] at hn; cases hn
  · next hit' hn =>
    obtain rfl : hit' = hit := by rw [h] at hn; cases hn; rfl
    rfl

theorem cut_of_some {offset : Nat} {before : Option Char} {gap rest : Text} {n : Nat}
    (h : Trigger.next? lx.lenient lx.triggers before (gap ++ rest) = some ⟨gap.length, n⟩) :
    cut lx offset before (gap ++ rest) =
      let s := atTrigger lx (offset + gap.length) n rest
      leading offset gap.length gap ++
        s :: cut lx s.stop s.source.getLast? (rest.drop s.source.length) := by
  rw [cut_of_next? h]
  dsimp only
  rw [List.drop_left, leading_eq]

/-- the segment of a trigger that stands ahead is not empty -/
theorem source_ne_nil {offset n : Nat} {rest : Text}
    (h : Trigger.tailAt? lx.lenient done.getLast? rest lx.triggers = some n) :
    (atTrigger lx offset n rest).source ≠ [] := by
  have hn := Trigger.lt_length_of_tailAt? h
  have hpos := atTrigger_source_length_pos lx offset n (t := rest) (by omega)
  exact List.length_pos_iff.1 hpos

/-- where the scan goes on after the segment of a trigger -/
theorem stop_and_last {gap : Text} {s : Segment} {n : Nat} {rest : Text}
    (htail : Trigger.tailAt? lx.lenient (done ++ gap).getLast? rest lx.triggers = some n)
    (hs : atTrigger lx (done ++ gap).length n rest = s) :
    s.stop = (done ++ (gap ++ s.source)).length ∧
      s.source.getLast? = (done ++ (gap ++ s.source)).getLast? := by
  have hne : s.source ≠ [] := hs ▸ source_ne_nil htail
  have hstart : s.start = (done ++ gap).length := hs ▸ start_atTrigger _ _ _ _
  constructor
  · rw [stop, hstart, List.length_append, List.length_append, List.length_append]
    omega
  · rw [← List.append_assoc, Trigger.getLast?_append_of_ne_nil hne]

/-- **The scan cuts as the judgment says.** -/
theorem cuts_cut (lx : Lexicon) (done t : Text) :
    Cuts lx done t (cut lx done.length done.getLast? t) := by
  induction hk : t.length using Nat.strongRecOn generalizing done t with
  | ind k ih =>
    rcases Trigger.next?_cases lx.lenient lx.triggers done t with
      ⟨hnone, hquiet⟩ | ⟨gap, rest, n, rfl, hquiet, htail, hsome⟩
    · rw [cut_of_none hnone]
      exact .rest hquiet
    · rw [cut_of_some hsome]
      dsimp only
      rw [← List.length_append]
      generalize hs : atTrigger lx (done ++ gap).length n rest = s
      obtain ⟨hstop, hlast⟩ := stop_and_last htail hs
      have hne : s.source ≠ [] := hs ▸ source_ne_nil htail
      obtain ⟨t, rfl⟩ : s.source <+: rest := hs ▸ source_prefix _ _ _ _
      have hshorter : t.length < k := by
        have := List.length_pos_iff.2 hne
        simp only [List.length_append] at hk
        omega
      rw [List.drop_left, hstop, hlast]
      exact .trigger hquiet htail hs (ih t.length hshorter _ t rfl)

theorem cut_eq_of_cuts (h : Cuts lx done t ss) : cut lx done.length done.getLast? t = ss := by
  induction h with
  | @rest done t hquiet =>
    rcases Trigger.next?_cases lx.lenient lx.triggers done t with
      ⟨hnone, -⟩ | ⟨gap, rest, n, rfl, -, htail, -⟩
    · exact cut_of_none hnone
    · obtain ⟨u, hu, -, hstands⟩ := Trigger.exists_standsAt_of_tailAt? htail
      rw [List.append_assoc] at hstands
      refine absurd ⟨u, hu, hstands⟩ (hquiet _ ?_ ?_)
      · rw [List.length_append]
        omega
      · have := Trigger.lt_length_of_tailAt? htail
        simp only [List.length_append]
        omega
  | @trigger done gap t n s ss hquiet htail hs _ ih =>
    have hnext : Trigger.next? lx.lenient lx.triggers done.getLast? (gap ++ (s.source ++ t)) =
        some ⟨gap.length, n⟩ := by
      rw [Trigger.next?_append_of_quiet hquiet, Trigger.next?_of_tailAt? htail, Option.map_some,
        Nat.zero_add]
    obtain ⟨hstop, hlast⟩ := stop_and_last htail hs
    rw [cut_of_some hnext]
    dsimp only
    rw [← List.length_append, hs, List.drop_left, hstop, hlast, ih]

/-- the judgment holds of the scan's segments and of no others -/
theorem cuts_iff : Cuts lx done t ss ↔ cut lx done.length done.getLast? t = ss := by
  constructor
  · exact cut_eq_of_cuts
  · rintro rfl
    exact cuts_cut lx done t

end

/-! ## tilings -/

/-- segments that follow each other from an offset to the end of a text, each with its part of it -/
def Tiles (t : Text) : Nat → List Segment → Prop
  | i, [] => i = t.length
  | i, s :: ss =>
    s.start = i ∧ s.start < s.stop ∧ s.source = t.extract s.start s.stop ∧ Tiles t s.stop ss

section
variable {lx : Lexicon} {done t : Text} {s : Segment} {ss : List Segment}

theorem length_le_of_tiles {i : Nat} (h : Tiles t i ss) : i + ss.length ≤ t.length := by
  induction ss generalizing i with
  | nil => exact Nat.le_of_eq h
  | cons s ss ih =>
    obtain ⟨hstart, hlt, -, hrest⟩ := h
    have := ih hrest
    rw [List.length_cons]
    omega

theorem tiles_cons (hstart : s.start = done.length) (hne : s.source ≠ [])
    (h : Tiles (done ++ (s.source ++ t)) (done ++ s.source).length ss) :
    Tiles (done ++ (s.source ++ t)) done.length (s :: ss) := by
  have hstop : s.stop = (done ++ s.source).length := by
    rw [stop, hstart, List.length_append]
  have hpos := List.length_pos_iff.2 hne
  refine ⟨hstart, ?_, ?_, hstop ▸ h⟩
  · rw [stop]
    omega
  · rw [List.extract_eq_take_drop, hstart, List.drop_left, hstop, List.length_append,
      Nat.add_sub_cancel_left, List.take_left]

theorem tiles_leading {gap : Text} (h : Tiles (done ++ (gap ++ t)) (done ++ gap).length ss) :
    Tiles (done ++ (gap ++ t)) done.length (leading done.length gap.length gap ++ ss) := by
  by_cases hne : gap = []
  · subst hne
    rw [List.append_nil] at h
    exact h
  · rw [leading_of_ne_nil _ hne]
    exact tiles_cons (s := ⟨done.length, gap, .text⟩) rfl hne h

theorem tiles_of_cuts (h : Cuts lx done t ss) : Tiles (done ++ t) done.length ss := by
  induction h with
  | @rest done t _ =>
    have hend : Tiles (done ++ (t ++ [])) (done ++ t).length [] := by
      rw [List.append_nil]
      exact rfl
    have h := tiles_leading hend
    rw [List.append_nil] at h
    rwa [List.append_nil] at h
  | @trigger done gap t n s ss _ htail hs _ ih =>
    have hstart : s.start = (done ++ gap).length := hs ▸ start_atTrigger _ _ _ _
    have hne : s.source ≠ [] := hs ▸ source_ne_nil htail
    have hsplit : done ++ (gap ++ (s.source ++ t)) = (done ++ gap) ++ (s.source ++ t) := by simp
    refine tiles_leading ?_
    rw [hsplit]
    refine tiles_cons hstart hne ?_
    simpa using ih

/-! ## the kinds of neighbours -/

/-- not both of them are text -/
def Apart (r s : Segment) : Prop := r.kind = .text → s.kind ≠ .text

theorem isChain_cons (hs : s.kind ≠ .text) (h : ss.IsChain Apart) : (s :: ss).IsChain Apart := by
  cases ss with
  | nil => exact .singleton s
  | cons r ss => exact .cons_cons (fun htext => absurd htext hs) h

theorem isChain_of_cuts (h : Cuts lx done t ss) : ss.IsChain Apart := by
  induction h with
  | @rest done t _ =>
    by_cases hne : t = []
    · rw [hne]
      exact .nil
    · rw [leading_of_ne_nil _ hne]
      exact .singleton _
  | @trigger done gap t n s ss _ _ hs _ ih =>
    have hkind : s.kind ≠ .text := hs ▸ kind_atTrigger _ _ _ _
    by_cases hne : gap = []
    · rw [hne]
      exact isChain_cons hkind ih
    · rw [leading_of_ne_nil _ hne]
      exact .cons_cons (fun _ => hkind) (isChain_cons hkind ih)

/-! ## where segments begin -/

/-- no trigger begins within a text segment; any other one begins with a listed trigger, which is
the trigger that the segment names and ends within it -/
def Placed (lx : Lexicon) (t : Text) (s : Segment) : Prop :=
  (s.kind = .text → Trigger.Quiet lx.lenient lx.triggers t s.start s.stop) ∧
    (s.kind ≠ .text → ∃ u ∈ lx.triggers, Trigger.StandsAt lx.lenient u t s.start ∧
      s.start + u.length ≤ s.stop ∧ s.trigger = t.extract s.start (s.start + u.length))

theorem placed_leading {gap : Text}
    (h : Trigger.Quiet lx.lenient lx.triggers t done.length (done ++ gap).length)
    (hs : s ∈ leading done.length gap.length gap) : Placed lx t s := by
  obtain ⟨-, rfl⟩ := mem_leading hs
  refine ⟨fun _ => ?_, fun hkind => absurd rfl hkind⟩
  rw [List.length_append] at h
  exact h

theorem placed_atTrigger {n : Nat} {rest : Text}
    (h : Trigger.tailAt? lx.lenient done.getLast? rest lx.triggers = some n) :
    Placed lx (done ++ rest) (atTrigger lx done.length n rest) := by
  refine ⟨fun hkind => absurd hkind (kind_atTrigger _ _ _ _), fun _ => ?_⟩
  obtain ⟨u, hu, hlen, hstands⟩ := Trigger.exists_standsAt_of_tailAt? h
  have hn := Trigger.lt_length_of_tailAt? h
  have hsource := (take_prefix_source lx done.length n rest).length_le
  rw [List.length_take] at hsource
  rw [start_atTrigger, trigger_atTrigger]
  refine ⟨u, hu, hstands, ?_, ?_⟩
  · rw [stop, start_atTrigger]
    omega
  · rw [List.extract_eq_take_drop, List.drop_left, hlen, Nat.add_sub_cancel_left]

theorem placed_of_cuts (h : Cuts lx done t ss) : ∀ s ∈ ss, Placed lx (done ++ t) s := by
  induction h with
  | @rest done t hquiet => exact fun s hs => placed_leading hquiet hs
  | @trigger done gap t n s ss hquiet htail hs _ ih =>
    intro r hr
    rcases List.mem_append.1 hr with hr | hr
    · exact placed_leading hquiet hr
    · rcases List.mem_cons.1 hr with rfl | hr
      · have hplaced := placed_atTrigger htail
        rw [hs] at hplaced
        simpa using hplaced
      · simpa using ih r hr

end

/-- **The segments of a text tile it.**  Whatever the triggers, the phrases and the mis-heard
spellings are, a scan comes to an end with no more segments than characters.  The segments follow
each other from the start of the text to its end, none of them empty and each with its part of the
text; no two text segments are neighbours; a command or a lone trigger begins where a listed trigger
stands as a whole word and takes in all of it; and within a text segment no trigger begins. -/
theorem segments_tile (lx : Lexicon) (t : Text) :
    Tiles t 0 (segments lx t) ∧ (segments lx t).length ≤ t.length ∧
      (segments lx t).IsChain Apart ∧ ∀ s ∈ segments lx t, Placed lx t s := by
  have hcuts : Cuts lx [] t (segments lx t) := cuts_cut lx [] t
  have htiles : Tiles t 0 (segments lx t) := tiles_of_cuts hcuts
  refine ⟨htiles, ?_, isChain_of_cuts hcuts, placed_of_cuts hcuts⟩
  have := length_le_of_tiles htiles
  omega

end Dictation.Segment
