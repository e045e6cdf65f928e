import Dictation.Proofs.CommandSegments
import Dictation.Proofs.Contexts
import Dictation.Proofs.Spoken
import Dictation.Proofs.Text.Ascii

/-!
# Triggers in any order

Where two triggers of a list stand at one place, or two of them begin one utterance, the shorter one
is the first words of the other.  If that is so of no two of them, the order in which they are
listed makes no difference.

* `Context.Independent`    no trigger is the first words of another one;
* `Context.OrderFree`      such triggers with an ASCII lower case;
* `Context.SameTriggers`   the same triggers up to case, in any order;
* `tailAt?_congr`, `afterTrigger?_congr`   a place and an utterance under two such lists;
* `Context.reads_in_any_order`   everything that is read off an utterance.
-/

namespace Dictation
namespace Context

/-! ## lists of triggers up to case and order -/

/-- no trigger, up to case, is the first words of another one -/
def Independent (ts : List Text) : Prop :=
  ∀ s ∈ ts, ∀ t ∈ ts, ¬ Text.lower s ++ [' '] <+: Text.lower t

instance : DecidablePred Independent := fun ts =>
  inferInstanceAs (Decidable (∀ s ∈ ts, ∀ t ∈ ts, ¬ Text.lower s ++ [' '] <+: Text.lower t))

/-- the same triggers up to case, in any order -/
def SameTriggers (ts us : List Text) : Prop :=
  ∀ k, k ∈ ts.map Text.lower ↔ k ∈ us.map Text.lower

section
variable {ts us asked asked' : List Text} {k : Text}

theorem SameTriggers.symm (h : SameTriggers ts us) : SameTriggers us ts := fun k => (h k).symm

theorem SameTriggers.exists_mem (h : SameTriggers ts us) {u : Text} (hu : u ∈ ts) :
    ∃ v ∈ us, v.lower = u.lower :=
  List.mem_map.1 ((h _).1 (List.mem_map_of_mem hu))

theorem SameTriggers.isEmpty_eq (h : SameTriggers ts us) : ts.isEmpty = us.isEmpty := by
  cases ts with
  | nil =>
    cases us with
    | nil => rfl
    | cons u us => exact absurd ((h u.lower).2 List.mem_cons_self) List.not_mem_nil
  | cons t ts =>
    cases us with
    | nil => exact absurd ((h t.lower).1 List.mem_cons_self) List.not_mem_nil
    | cons u us => rfl

/-- what a list asks for, up to case -/
def Asks (asked : List Text) (k : Text) : Prop :=
  ∃ a ∈ asked, a.squeeze ≠ [] ∧ a.squeeze.lower = k

theorem asks_cons (a : Text) (asked : List Text) (k : Text) :
    Asks (a :: asked) k ↔ (a.squeeze ≠ [] ∧ a.squeeze.lower = k) ∨ Asks asked k :=
  List.exists_mem_cons_iff _ _ _

theorem asks_of_perm (h : asked.Perm asked') (k : Text) : Asks asked k ↔ Asks asked' k :=
  exists_congr fun _ => and_congr_left' h.mem_iff

theorem asks_of_usable (h : ∀ u ∈ ts, Usable u) (k : Text) :
    Asks ts k ↔ k ∈ ts.map Text.lower := by
  rw [List.mem_map]
  refine exists_congr fun u => and_congr_right fun hu => ?_
  rw [(h u hu).2]
  exact and_iff_right (h u hu).1

theorem mem_lower_keepNew (kept : List Text) (a k : Text) :
    k ∈ (keepNew kept a).map Text.lower ↔
      k ∈ kept.map Text.lower ∨ (a.squeeze ≠ [] ∧ a.squeeze.lower = k) := by
  unfold keepNew
  dsimp only
  split
  · next h =>
    -- what is asked for is blank or there already
    refine ⟨.inl, ?_⟩
    rintro (hk | ⟨hne, rfl⟩)
    · exact hk
    · rw [Bool.or_eq_true, List.isEmpty_iff, List.any_eq_true] at h
      obtain ⟨u, hu, heq⟩ := h.resolve_left hne
      rw [← beq_iff_eq.1 heq]
      exact List.mem_map_of_mem hu
  · next h =>
    rw [Bool.or_eq_true, not_or, List.isEmpty_iff] at h
    rw [List.map_append, List.mem_append, List.map_singleton, List.mem_singleton]
    exact or_congr_right ⟨fun hk => ⟨h.1, hk.symm⟩, fun hk => hk.2.symm⟩

theorem mem_lower_usableTriggers (asked : List Text) (k : Text) :
    k ∈ (usableTriggers asked).map Text.lower ↔ Asks asked k := by
  have hfold (as kept : List Text) :
      k ∈ (as.foldl keepNew kept).map Text.lower ↔ k ∈ kept.map Text.lower ∨ Asks as k := by
    induction as generalizing kept with
    | nil => simp [Asks]
    | cons a as ih => rw [List.foldl_cons, ih, mem_lower_keepNew, or_assoc, asks_cons]
  rw [usableTriggers, hfold, List.map_nil, or_iff_right List.not_mem_nil]

/-- lists that ask for the same make the same triggers -/
theorem sameTriggers_triggersFrom (h : ∀ k, Asks asked k ↔ Asks asked' k) :
    SameTriggers (triggersFrom asked) (triggersFrom asked') := by
  have hsame : SameTriggers (usableTriggers asked) (usableTriggers asked') := fun k => by
    rw [mem_lower_usableTriggers, mem_lower_usableTriggers, h]
  unfold triggersFrom
  dsimp only
  rw [hsame.isEmpty_eq]
  split
  · exact fun _ => Iff.rfl
  · exact hsame

/-- the triggers of a context, asked for again -/
theorem sameTriggers_triggersFrom_triggersFrom (asked : List Text) :
    SameTriggers (triggersFrom asked) (triggersFrom (triggersFrom asked)) := by
  have husable := (clean_triggersFrom asked).usable
  have hne := triggersFrom_ne_nil asked
  generalize triggersFrom asked = ts at husable hne
  have hsame : SameTriggers ts (usableTriggers ts) := fun k => by
    rw [mem_lower_usableTriggers, asks_of_usable husable]
  have hempty : (usableTriggers ts).isEmpty = false := by
    rw [← hsame.isEmpty_eq, Bool.eq_false_iff, ne_eq, List.isEmpty_iff]
    exact hne
  rw [triggersFrom, hempty, if_neg Bool.false_ne_true]
  exact hsame

/-! ## triggers whose order is free -/

/-- triggers of which one at most stands at a place, and one at most begins an utterance -/
structure OrderFree (ts : List Text) : Prop where
  usable : ∀ u ∈ ts, Usable u
  ascii : ∀ u ∈ ts, Text.Ascii u.lower
  independent : Independent ts

theorem OrderFree.of_same (h : OrderFree ts) (hsame : SameTriggers us ts)
    (husable : ∀ u ∈ us, Usable u) : OrderFree us where
  usable := husable
  ascii u hu := by
    obtain ⟨v, hv, hlower⟩ := hsame.exists_mem hu
    rw [← hlower]
    exact h.ascii v hv
  independent u hu v hv := by
    obtain ⟨u', hu', hlower⟩ := hsame.exists_mem hu
    obtain ⟨v', hv', hlower'⟩ := hsame.exists_mem hv
    rw [← hlower, ← hlower']
    exact h.independent u' hu' v' hv'

end
end Context

/-! ## one place in a text -/

namespace Trigger

section
variable {before : Option Char} {s t x : Text} {ts us : List Text}

theorem stands_congr (lenient : Bool) (before : Option Char) (h : s.map caseKey = t.map caseKey)
    (x : Text) : stands lenient before s x = stands lenient before t x := by
  have hlen : s.length = t.length := by
    rw [← List.length_map caseKey, h, List.length_map]
  rw [Bool.eq_iff_iff, stands_iff, stands_iff, h, hlen]

/-- the shorter of two triggers at one place is the first words of the longer one -/
theorem lower_prefix_of_stands (hs : Text.Ascii s.lower) (ht : Text.Ascii t.lower)
    (husable : Context.Usable t) (hstands : stands false before s x = true)
    (hstands' : stands false before t x = true) (hlen : s.length < t.length) :
    s.lower ++ [' '] <+: t.lower := by
  obtain ⟨-, hprefix, hafter⟩ := (stands_iff _ _ _ _).1 hstands
  obtain ⟨-, hprefix', -⟩ := (stands_iff _ _ _ _).1 hstands'
  have hx : t.length ≤ x.length :=
    Text.length_le_of_beginsAlike ((Text.beginsAlike_iff _ _).2 hprefix')
  -- the blank after the shorter one is a character of the longer one
  obtain ⟨b, r, hb⟩ : ∃ b r, x.drop s.length = b :: r :=
    List.exists_cons_of_length_pos (by rw [List.length_drop]; omega)
  rw [hb, Phrase.isBoundary_strict] at hafter
  have hkeys : s.map caseKey ++ [caseKey b] <+: t.map caseKey := by
    refine List.prefix_of_prefix_length_le ?_ hprefix' (by simp; omega)
    rw [← map_take_of_prefix hprefix, ← List.map_singleton, ← List.map_append]
    refine List.IsPrefix.map caseKey ⟨r, ?_⟩
    rw [List.append_assoc, List.singleton_append, ← hb, List.take_append_drop]
  rw [Text.map_caseKey_of_ascii_lower hs, Text.map_caseKey_of_ascii_lower ht,
    caseKey_of_blank hafter, ← List.map_singleton, ← List.map_append,
    List.prefix_map_iff_of_injective fun _ _ => Char.toNat_inj.1] at hkeys
  have hmem : b ∈ Text.squeeze t.lower := by
    rw [Text.squeeze_lower husable.2]
    exact hkeys.subset (by simp)
  rwa [Text.eq_space_of_mem_squeeze hmem hafter] at hkeys

theorem length_eq_of_stands (hts : Context.OrderFree ts) (hs : s ∈ ts) (ht : t ∈ ts)
    (hstands : stands false before s x = true) (hstands' : stands false before t x = true) :
    s.length = t.length := by
  rcases Nat.lt_trichotomy s.length t.length with hlt | heq | hlt
  · exact absurd (lower_prefix_of_stands (hts.ascii s hs) (hts.ascii t ht) (hts.usable t ht)
      hstands hstands' hlt) (hts.independent s hs t ht)
  · exact heq
  · exact absurd (lower_prefix_of_stands (hts.ascii t ht) (hts.ascii s hs) (hts.usable s hs)
      hstands' hstands hlt) (hts.independent t ht s hs)

theorem tailAt?_of_same (hts : Context.OrderFree ts) (hus : Context.OrderFree us)
    (hsame : Context.SameTriggers ts us) {n : Nat} (h : tailAt? false before x ts = some n) :
    tailAt? false before x us = some n := by
  obtain ⟨earlier, u, later, hsplit, hlen, hstands, -⟩ := exists_of_tailAt? h
  have hu : u ∈ ts := by simp [hsplit]
  obtain ⟨v, hv, hlower⟩ := hsame.exists_mem hu
  have hkeys : v.map caseKey = u.map caseKey := by
    rw [Text.map_caseKey_of_ascii_lower (hus.ascii v hv),
      Text.map_caseKey_of_ascii_lower (hts.ascii u hu), hlower]
  rw [← stands_congr false before hkeys] at hstands
  cases hm : tailAt? false before x us with
  | none =>
    rw [stands_eq_false_of_tailAt? hm v hv (hus.usable v hv).1] at hstands
    cases hstands
  | some m =>
    obtain ⟨earlier, w, later, hsplit, hlen', hstands', -⟩ := exists_of_tailAt? hm
    have hvw := length_eq_of_stands hus hv (by simp [hsplit]) hstands hstands'
    have huv : v.length = u.length := by
      rw [← List.length_map caseKey, hkeys, List.length_map]
    rw [show m = n by omega]

/-- **At one place the order of the triggers makes no difference.** -/
theorem tailAt?_congr (hts : Context.OrderFree ts) (hus : Context.OrderFree us)
    (hsame : Context.SameTriggers ts us) (before : Option Char) (x : Text) :
    tailAt? false before x ts = tailAt? false before x us :=
  Option.ext fun _ => ⟨tailAt?_of_same hts hus hsame, tailAt?_of_same hus hts hsame.symm⟩

end
end Trigger

/-! ## one utterance -/

namespace Command

section
variable {s t x rest rest' : Text} {ts us : List Text}

/-- two splits at a space leave the same, or the first words of one are those of the other -/
theorem eq_or_prefix_of_append (h : s ++ ' ' :: rest = t ++ ' ' :: rest') :
    rest = rest' ∨ s ++ [' '] <+: t ∨ t ++ [' '] <+: s := by
  rcases List.append_eq_append_iff.1 h with ⟨a, rfl, ha⟩ | ⟨a, rfl, ha⟩
  · cases a with
    | nil => exact .inl (List.cons.inj ha).2
    | cons c a =>
      obtain rfl := (List.cons.inj ha).1
      exact .inr (.inl ⟨a, List.append_assoc _ _ _⟩)
  · cases a with
    | nil => exact .inl (List.cons.inj ha).2.symm
    | cons c a =>
      obtain rfl := (List.cons.inj ha).1
      exact .inr (.inr ⟨a, List.append_assoc _ _ _⟩)

theorem rest_eq_of_leaves (hts : Context.OrderFree ts) (hs : s ∈ ts) (ht : t ∈ ts)
    (hleaves : Leaves s x rest) (hleaves' : Leaves t x rest') : rest = rest' := by
  rw [Leaves, normalize_of_squeezed (hts.usable s hs).2] at hleaves
  rw [Leaves, normalize_of_squeezed (hts.usable t ht).2] at hleaves'
  have hst := hts.independent s hs t ht
  have hts := hts.independent t ht s hs
  rcases hleaves with ⟨rfl, rfl⟩ | rfl
  · rcases hleaves' with ⟨-, rfl⟩ | heq
    · rfl
    · exact absurd ⟨rest', by rw [heq, List.append_assoc]; rfl⟩ hts
  · rcases hleaves' with ⟨heq, rfl⟩ | heq
    · exact absurd ⟨rest, by rw [← heq, List.append_assoc]; rfl⟩ hst
    · rcases eq_or_prefix_of_append heq with heq | hprefix | hprefix
      · exact heq
      · exact absurd hprefix hst
      · exact absurd hprefix hts

theorem afterTrigger?_of_same (hts : Context.OrderFree ts) (hus : Context.OrderFree us)
    (hsame : Context.SameTriggers ts us) (h : afterTrigger? x ts = some rest) :
    afterTrigger? x us = some rest := by
  obtain ⟨u, hu, hleaves⟩ := exists_leaves_of_afterTrigger? h
  obtain ⟨v, hv, hlower⟩ := hsame.exists_mem hu
  have hnormal : normalize v = normalize u := by
    rw [normalize_of_squeezed (hus.usable v hv).2, normalize_of_squeezed (hts.usable u hu).2,
      hlower]
  rw [Leaves, ← hnormal] at hleaves
  cases hr : afterTrigger? x us with
  | none => exact absurd hleaves (afterTrigger?_eq_none hr v hv rest)
  | some rest' =>
    obtain ⟨w, hw, hleaves'⟩ := exists_leaves_of_afterTrigger? hr
    rw [rest_eq_of_leaves hus hv hw hleaves hleaves']

/-- **For one utterance the order of the triggers makes no difference.** -/
theorem afterTrigger?_congr (hts : Context.OrderFree ts) (hus : Context.OrderFree us)
    (hsame : Context.SameTriggers ts us) (x : Text) : afterTrigger? x ts = afterTrigger? x us :=
  Option.ext fun _ =>
    ⟨afterTrigger?_of_same hts hus hsame, afterTrigger?_of_same hus hts hsame.symm⟩

theorem interpret_congr {ctx ctx' : Context} (hlocale : ctx.locale = ctx'.locale)
    (hts : Context.OrderFree ctx.triggers) (hus : Context.OrderFree ctx'.triggers)
    (hsame : Context.SameTriggers ctx.triggers ctx'.triggers) (t : Text) :
    interpret ctx t = interpret ctx' t := by
  have hnormal : normalizeIn ctx t = normalizeIn ctx' t := by
    unfold normalizeIn Context.readsPeriod
    rw [hlocale]
  rw [interpret, interpret, afterTrigger?_congr hts hus hsame, hnormal]

end
end Command

/-! ## every reading -/

namespace Context

theorem alike_of_same {ctx ctx' : Context} (hlocale : ctx.locale = ctx'.locale)
    (hcleanup : ctx.cleanup = false) (hcleanup' : ctx'.cleanup = false)
    (hts : OrderFree ctx.triggers) (hus : OrderFree ctx'.triggers)
    (hsame : SameTriggers ctx.triggers ctx'.triggers) (t : Text) : ctx.Alike ctx' t where
  cleanup := hcleanup.trans hcleanup'.symm
  segments := by
    refine Segment.cut_congr (fun before x => ?_) (fun x => ?_) 0 none t
    · rw [Segment.lenient_lexicon hcleanup, Segment.lenient_lexicon hcleanup']
      exact Trigger.tailAt?_congr hts hus hsame before x
    · unfold Phrase.match? Segment.lexicon
      rw [hcleanup, hcleanup']
  replies _ _ _ _ _ _ := Command.interpret_congr hlocale hts hus hsame _

/-- **The order of independent triggers does not matter.**  Let the triggers of a context be ASCII,
none of them the first words of another one.  Listed in any other order, before they are cleaned or
after, they cut every utterance into the same segments, and without clean-up each compiler and the
reading as one command give the same. -/
theorem reads_in_any_order (locale : Text) {asked asked' : List Text}
    (hperm : asked'.Perm asked ∨ asked'.Perm (triggersFrom asked))
    (hascii : ∀ u ∈ triggersFrom asked, u.Ascii) (hind : Independent (triggersFrom asked))
    (t : Text) :
    let ctx := ofOptions locale asked false
    let ctx' := ofOptions locale asked' false
    Segment.ofText ctx t = Segment.ofText ctx' t ∧ Inline.compile ctx t = Inline.compile ctx' t ∧
      Mixed.compile ctx t = Mixed.compile ctx' t ∧
      Transcript.compile ctx t = Transcript.compile ctx' t ∧
      Command.interpret ctx t = Command.interpret ctx' t := by
  intro ctx ctx'
  have hsame : SameTriggers ctx.triggers ctx'.triggers := by
    rcases hperm with hperm | hperm
    · exact sameTriggers_triggersFrom (asks_of_perm hperm.symm)
    · exact fun k => (sameTriggers_triggersFrom_triggersFrom asked k).trans
        (sameTriggers_triggersFrom (asks_of_perm hperm.symm) k)
  have hfree : OrderFree ctx.triggers :=
    ⟨(clean_triggersFrom asked).usable, fun u hu => Text.ascii_lower (hascii u hu), hind⟩
  have hfree' : OrderFree ctx'.triggers :=
    hfree.of_same hsame.symm (clean_triggersFrom asked').usable
  have hlocale : ctx.locale = ctx'.locale := rfl
  have halike (t : Text) : ctx.Alike ctx' t :=
    alike_of_same hlocale rfl rfl hfree hfree' hsame t
  exact ⟨(halike t).segments, Inline.compile_congr (halike _), Mixed.compile_congr (halike _),
    Transcript.compile_congr fun _ _ => Inline.compile_congr (halike _),
    Command.interpret_congr hlocale hfree hfree' hsame t⟩

/-- the default triggers in the other order, one of them asked for twice -/
theorem hello_in_any_order :
    let asked := ["voicemark".toList, "voice mark".toList, " VOICE  mark".toList]
    let asked' := [" VOICE  mark".toList, "voicemark".toList, "voice mark".toList]
    let t : Text := "hello Voice Mark comma voicemark voice mark dash".toList
    (asked'.Perm asked ∨ asked'.Perm (triggersFrom asked)) ∧
      (∀ u ∈ triggersFrom asked, u.Ascii) ∧ Independent (triggersFrom asked) ∧
      triggersFrom asked' ≠ triggersFrom asked ∧
      Inline.compile (ofOptions "en-GB".toList asked' false) t =
        [.insertText "hello".toList, .insertText ",".toList, .insertText " voicemark ".toList,
          .insertText "-".toList] := by
  intro asked asked' t
  have hperm : asked'.Perm asked := by decide
  have hascii : ∀ u ∈ triggersFrom asked, u.Ascii := by decide +kernel
  have hind : Independent (triggersFrom asked) := by decide +kernel
  obtain ⟨-, hsame, -⟩ := reads_in_any_order "en-GB".toList (.inl hperm) hascii hind t
  have hrun : Inline.compile (ofOptions "en-GB".toList asked false) t =
      [.insertText "hello".toList, .insertText ",".toList, .insertText " voicemark ".toList,
        .insertText "-".toList] := by
    -- evaluation is faster on texts that are spelled out
    simp only [asked, t, String.reduceToList]
    decide +kernel
  exact ⟨.inl hperm, hascii, hind, by decide +kernel, hsame.symm.trans hrun⟩

end Context
end Dictation
