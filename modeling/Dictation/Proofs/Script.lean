import Dictation.Proofs.Alone
import Mathlib.Data.List.Chain

/-!
# Speaking a script

A script is a list of things to say: text to dictate and commands.  It is spoken with single spaces
between its items.  With the default triggers and without clean-up, a scan of what was spoken gives
the items back.

* `Item.Sayable`, `Item.Apart`   what a script may have;
* `quiet_of_text`      no trigger is heard in the text before a command, nor across its ends;
* `exists_cuts`        the scan, item by item;
* `Item.ofText_script`   speaking and scanning; and what each command means.
-/

namespace Dictation

inductive Item where
  | text (text : Text)
  | command (trigger phrase : Text)

namespace Item

def spoken : Item → Text
  | text t => t
  | command trigger phrase => Inline.spoken trigger phrase

/-- words in which no trigger is heard, or a trigger and a phrase in any case -/
def Sayable : Item → Prop
  | text t => t ≠ [] ∧ t.trim = t ∧ ∀ i, ¬ Trigger.Occurs false Context.defaultTriggers t i
  | command trigger phrase => trigger.map Char.toLower ∈ Context.defaultTriggers ∧
      phrase.map Char.toLower ∈ Command.phrases

/-- not both of them are text -/
def Apart : Item → Item → Prop
  | text _, text _ => False
  | _, _ => True

/-- what a scan should say of an item, and which characters it should take for it -/
def heard : Item → Segment.Kind × Text
  | text t => (.text, t)
  | command trigger phrase =>
    (.command trigger (phrase.map Char.toLower) false, Inline.spoken trigger phrase)

/-! ## what is spoken -/

def script (items : List Item) : Text := Text.joinWith [' '] (items.map spoken)

/-- the space before the items that follow, if any do -/
def space : List Item → Text
  | [] => []
  | _ :: _ => [' ']

theorem script_nil : script [] = [] := rfl

theorem script_cons (i : Item) (items : List Item) :
    script (i :: items) = i.spoken ++ (space items ++ script items) := by
  cases items with
  | nil => exact (List.append_nil _).symm
  | cons j items =>
    rw [script, List.map_cons, List.map_cons, Text.joinWith_cons, List.append_assoc]
    rfl

theorem allBlank_space (items : List Item) : (space items).allBlank = true := by
  cases items with
  | nil => rfl
  | cons i items => rfl

theorem head?_space_append (items : List Item) :
    (space items ++ script items).head?.all isBlank = true := by
  cases items with
  | nil => rfl
  | cons i items => rfl

theorem isBoundary_space {items : List Item} (h : items ≠ []) (done : Text) :
    isBoundary false (done ++ space items).getLast? = true := by
  obtain ⟨i, items, rfl⟩ := List.exists_cons_of_ne_nil h
  show isBoundary false (done ++ [' ']).getLast? = true
  rw [List.getLast?_concat]
  decide

end Item

/-! ## the default triggers -/

namespace Context

theorem defaultTriggers_head? : ∀ u ∈ defaultTriggers,
    u.head?.map caseKey = some (caseKey 'v') := by decide

/-- the word after a blank in a trigger does not begin as a trigger does -/
theorem defaultTriggers_second : ∀ u ∈ defaultTriggers, ∀ k < u.length,
    (u.map caseKey)[k]? = some (caseKey ' ') →
      (u.map caseKey)[k + 1]? = some (caseKey 'm') := by decide

theorem defaultTriggers_small : ∀ u ∈ defaultTriggers,
    u.Ascii ∧ u.map Char.toLower = u ∧ u.squeeze = u := by decide

theorem defaultTriggers_usable : ∀ u ∈ defaultTriggers, Usable u := (clean_triggersFrom []).usable

theorem defaultTriggers_kept : ∀ u ∈ defaultTriggers,
    Command.replaceWord Command.period Command.fullStop u = u := by decide +kernel

section
variable {trigger : Text} (h : trigger.map Char.toLower ∈ defaultTriggers)
include h

theorem ascii_of_default : trigger.Ascii :=
  Text.ascii_of_map_toLower (defaultTriggers_small _ h).1

theorem map_caseKey_of_default :
    trigger.map caseKey = (trigger.map Char.toLower).map caseKey := by
  obtain ⟨hascii, hsmall, -⟩ := defaultTriggers_small _ h
  rw [Text.map_caseKey_of_ascii (ascii_of_default h), Text.map_caseKey_of_ascii hascii, hsmall]

end

section
variable {trigger heard : Text} (h : trigger ∈ defaultTriggers)
  (hheard : heard.map caseKey = trigger.map caseKey)
include h hheard

theorem head?_of_heard (rest : Text) :
    (heard ++ rest).head?.map caseKey = some (caseKey 'v') := by
  have hhead := defaultTriggers_head? _ h
  rw [← List.head?_map, ← hheard, List.head?_map] at hhead
  cases heard with
  | nil => cases hhead
  | cons c t => exact hhead

/-- which of the two triggers is heard where one of them is spoken -/
theorem exists_first_of_heard (before : Option Char) (rest : Text) :
    ∃ earlier later, defaultTriggers = earlier ++ trigger :: later ∧
      ∀ u ∈ earlier, u ≠ [] → Trigger.stands false before u (heard ++ rest) = false := by
  rcases List.mem_cons.1 h with rfl | htail
  · exact ⟨[], _, rfl, fun u hu => absurd hu List.not_mem_nil⟩
  · obtain rfl := List.mem_singleton.1 htail
    refine ⟨["voicemark".toList], [], rfl, fun u hu _ => ?_⟩
    rw [List.mem_singleton.1 hu, Bool.eq_false_iff]
    intro hstands
    have hprefix := ((Trigger.stands_iff _ _ _ _).1 hstands).2.1
    rw [List.map_append, hheard] at hprefix
    have hshort := List.prefix_of_prefix_length_le hprefix (List.prefix_append _ _) (by decide)
    exact absurd hshort (by decide)

end
end Context

/-! ## text before a command -/

theorem getElem?_of_prefix {s t : List Nat} (h : s <+: t) {k : Nat} (hk : k < s.length) :
    t[k]? = s[k]? := by
  rw [List.prefix_iff_getElem?.1 h k hk, List.getElem?_eq_getElem hk]

/-- what follows the text of an item: nothing, or a space and a trigger -/
def Followed (tail rest : Text) : Prop :=
  (tail = [] ∧ rest = []) ∨ (tail = [' '] ∧ rest.head?.map caseKey = some (caseKey 'v'))

/-- no trigger runs over the end of the text before a command -/
theorem length_le_of_prefix {u t tail rest : Text} (hu : u ∈ Context.defaultTriggers)
    (hafter : Followed tail rest) (h : u.map caseKey <+: (t ++ (tail ++ rest)).map caseKey) :
    u.length ≤ t.length := by
  by_contra hlt
  have hk : t.length < (u.map caseKey).length := by
    rw [List.length_map]
    omega
  rcases hafter with ⟨rfl, rfl⟩ | ⟨rfl, hrest⟩
  · have hle := h.length_le
    rw [List.append_nil, List.append_nil, List.length_map, List.length_map] at hle
    omega
  · have hblank := getElem?_of_prefix h hk
    rw [List.map_append, List.getElem?_append_right (by simp), List.length_map, Nat.sub_self]
      at hblank
    have hm := Context.defaultTriggers_second u hu t.length (by omega) hblank.symm
    have hk' : t.length + 1 < (u.map caseKey).length := by
      by_contra hle
      rw [List.getElem?_eq_none (by omega)] at hm
      cases hm
    have hv := getElem?_of_prefix h hk'
    rw [List.map_append, List.getElem?_append_right (by simp), List.length_map,
      Nat.add_sub_cancel_left, hm] at hv
    cases rest with
    | nil => cases hrest
    | cons d rest =>
      have hd : caseKey d = caseKey 'm' := Option.some.inj hv
      rw [List.head?_cons, Option.map_some, hd] at hrest
      exact absurd hrest (by decide)

/-- **No trigger is heard in the text before a command, nor across its ends.** -/
theorem quiet_of_text {done lead t tail rest : Text} (hlead : lead.allBlank = true)
    (hafter : Followed tail rest)
    (ht : ∀ i, ¬ Trigger.Occurs false Context.defaultTriggers t i) :
    Trigger.Quiet false Context.defaultTriggers (done ++ ((lead ++ (t ++ tail)) ++ rest))
      done.length (done ++ (lead ++ (t ++ tail))).length := by
  refine Trigger.quiet_of_gap fun a c b hgap u hu hne => ?_
  rw [Bool.eq_false_iff]
  intro hstands
  have hprefix := ((Trigger.stands_iff _ _ _ _).1 hstands).2.1
  -- a trigger begins with a letter, so the place is in the text itself
  have hc : isBlank c = false := by
    have hhead := Context.defaultTriggers_head? u hu
    obtain ⟨d, v, rfl⟩ := List.exists_cons_of_ne_nil hne
    rw [List.map_cons, List.map_cons, List.cons_prefix_cons] at hprefix
    have hkey : caseKey c = caseKey 'v' := by
      rw [← hprefix.1]
      exact Option.some.inj hhead
    rw [isBlank_of_caseKey_eq hkey]
    decide
  have hnot {w : Text} (hw : w.allBlank = true) : c ∉ w := by
    intro hm
    rw [Text.isBlank_of_mem hw hm] at hc
    cases hc
  have htail : tail.allBlank = true := by
    rcases hafter with ⟨rfl, -⟩ | ⟨rfl, -⟩
    · rfl
    · decide
  obtain ⟨x, rfl, hx⟩ := Text.exists_of_not_mem_left hgap (hnot hlead)
  obtain ⟨y, rfl, rfl⟩ := Text.exists_of_not_mem_right hx (hnot htail)
  rw [List.append_assoc, ← List.cons_append] at hprefix hstands
  rw [← List.append_assoc] at hstands
  have hlen := length_le_of_prefix hu hafter hprefix
  exact ht x.length ⟨u, hu, Trigger.standsAt_of_part hne hlen hstands⟩

/-! ## the scan of a script -/

namespace Segment

/-- the kind of a segment and its characters, text without the blanks around it -/
def shown (s : Segment) : Kind × Text :=
  match s.kind with
  | .text => (.text, s.source.trim)
  | kind => (kind, s.source)

/-- what the segments say; gaps say nothing -/
def said (ss : List Segment) : List (Kind × Text) := (ss.filter fun s => !s.isGap).map shown

theorem said_append (rs ss : List Segment) : said (rs ++ ss) = said rs ++ said ss := by
  rw [said, List.filter_append, List.map_append]
  rfl

theorem said_leading_of_allBlank {gap : Text} (h : gap.allBlank = true) (offset : Nat) :
    said (leading offset gap.length gap) = [] := by
  rw [said, (filter_leading_eq_nil_iff offset).2 h]
  rfl

/-- text between blanks -/
theorem said_leading_of_text {lead t tail : Text} (hlead : lead.allBlank = true)
    (htail : tail.allBlank = true) (hne : t ≠ []) (htrim : t.trim = t) (offset : Nat) :
    said (leading offset (lead ++ (t ++ tail)).length (lead ++ (t ++ tail))) = [(.text, t)] := by
  have htext : (lead ++ (t ++ tail)).trim = t := by
    rw [Text.trim_gap_append hlead, Text.trim_append_gap htail, htrim]
  have hblank : Text.allBlank (lead ++ (t ++ tail)) = false := by
    rw [Bool.eq_false_iff, ne_eq, ← Text.trim_eq_nil_iff, htext]
    exact hne
  have hgap : lead ++ (t ++ tail) ≠ [] := by
    intro hnil
    rw [hnil] at hblank
    cases hblank
  rw [leading_of_ne_nil _ hgap, said, List.filter_cons_of_pos (by simp [isGap, hblank])]
  show [(Kind.text, Text.trim (lead ++ (t ++ tail)))] = _
  rw [htext]

end Segment

namespace Item
open Segment

section
variable {locale done gap lead trigger phrase : Text} {items : List Item}

/-- a command after a gap in which no trigger is heard -/
theorem exists_cuts_command (hsay : (command trigger phrase).Sayable)
    (hbefore : isBoundary false (done ++ gap).getLast? = true)
    (hquiet : Trigger.Quiet false Context.defaultTriggers
      (done ++ (gap ++ script (command trigger phrase :: items))) done.length
      (done ++ gap).length)
    (ih : ∀ done, ∃ ss, Cuts (lexicon (Context.ofOptions locale [] false)) done
        (space items ++ script items) ss ∧ said ss = items.map heard) :
    ∃ ss, Cuts (lexicon (Context.ofOptions locale [] false)) done
        (gap ++ script (command trigger phrase :: items))
        (leading done.length gap.length gap ++ ss) ∧
      said ss = (command trigger phrase :: items).map heard := by
  obtain ⟨htrigger, hphrase⟩ := hsay
  obtain ⟨ss, hss, hsaid⟩ := ih (done ++ (gap ++ (trigger ++ ([' '] ++ phrase))))
  have hlower := Command.lower_of_map_toLower hphrase
  have hscript : script (command trigger phrase :: items) =
      trigger ++ ([' '] ++ (phrase ++ (space items ++ script items))) := by
    rw [script_cons, spoken, Inline.spoken, List.append_assoc]
    rfl
  obtain ⟨earlier, later, hts, hfirst⟩ := Context.exists_first_of_heard htrigger
    (Context.map_caseKey_of_default htrigger) (done ++ gap).getLast?
    ([' '] ++ (phrase ++ (space items ++ script items)))
  rw [← hlower] at hphrase
  rw [hscript] at hquiet ⊢
  have hcleanup : (Context.ofOptions locale [] false).cleanup = false := rfl
  have hne : trigger.map Char.toLower ≠ [] := by
    intro hnil
    rw [hnil] at htrigger
    exact absurd htrigger (by decide)
  have hcuts := cuts_command hcleanup hts hne (Context.map_caseKey_of_default htrigger) hbefore
    hfirst (List.cons_ne_nil _ _) (by decide) hphrase (head?_space_append items) hquiet hss
  refine ⟨_, hcuts, ?_⟩
  rw [said, List.filter_cons_of_pos rfl, List.map_cons, List.map_cons, ← hsaid]
  show (Segment.Kind.command trigger phrase.lower false, _) :: _ = (_, _) :: _
  rw [hlower]
  rfl

theorem head?_script_command (h : (command trigger phrase).Sayable) :
    (script (command trigger phrase :: items)).head?.map caseKey = some (caseKey 'v') := by
  rw [script_cons, spoken, Inline.spoken, List.append_assoc]
  exact Context.head?_of_heard h.1 (Context.map_caseKey_of_default h.1) _

/-- a text and the command after it, which are one step of the scan -/
theorem exists_cuts_text {t : Text} (hlead : lead.allBlank = true) (ht : (text t).Sayable)
    (hcommand : (command trigger phrase).Sayable)
    (ih : ∀ done, ∃ ss, Cuts (lexicon (Context.ofOptions locale [] false)) done
        (space items ++ script items) ss ∧ said ss = items.map heard) :
    ∃ ss, Cuts (lexicon (Context.ofOptions locale [] false)) done
        (lead ++ script (text t :: command trigger phrase :: items)) ss ∧
      said ss = (text t :: command trigger phrase :: items).map heard := by
  obtain ⟨hne, htrim, hnone⟩ := ht
  have hquiet : Trigger.Quiet false Context.defaultTriggers
      (done ++ ((lead ++ (t ++ [' '])) ++ script (command trigger phrase :: items)))
      done.length (done ++ (lead ++ (t ++ [' ']))).length :=
    quiet_of_text hlead (.inr ⟨rfl, head?_script_command hcommand⟩) hnone
  have hbefore : isBoundary false (done ++ (lead ++ (t ++ [' ']))).getLast? = true := by
    rw [← List.append_assoc, ← List.append_assoc, List.getLast?_concat]
    decide
  obtain ⟨ss, hss, hsaid⟩ := exists_cuts_command hcommand hbefore hquiet ih
  have hsplit : lead ++ script (text t :: command trigger phrase :: items) =
      (lead ++ (t ++ [' '])) ++ script (command trigger phrase :: items) := by
    rw [script_cons, spoken, List.append_assoc, List.append_assoc]
    rfl
  rw [hsplit]
  refine ⟨_, hss, ?_⟩
  rw [said_append, hsaid, said_leading_of_text hlead (by decide) hne htrim]
  rfl

/-- **A scan takes a script apart item by item.** -/
theorem exists_cuts (locale : Text) : ∀ (items : List Item) (done lead : Text),
    lead.allBlank = true → (items ≠ [] → isBoundary false (done ++ lead).getLast? = true) →
    (∀ i ∈ items, i.Sayable) → items.IsChain Apart →
    ∃ ss, Cuts (lexicon (Context.ofOptions locale [] false)) done (lead ++ script items) ss ∧
      said ss = items.map heard
  | [], done, lead, hlead, _, _, _ => by
    have hquiet : Trigger.Quiet false Context.defaultTriggers (done ++ (lead ++ [])) done.length
        (done ++ lead).length := Trigger.quiet_of_allBlank Context.defaultTriggers_usable hlead
    rw [List.append_nil] at hquiet
    refine ⟨_, ?_, said_leading_of_allBlank hlead done.length⟩
    rw [script_nil, List.append_nil]
    exact .rest hquiet
  | [text t], done, lead, hlead, _, hsay, _ => by
    obtain ⟨hne, htrim, hnone⟩ := hsay _ List.mem_cons_self
    have hquiet : Trigger.Quiet false Context.defaultTriggers
        (done ++ ((lead ++ (t ++ [])) ++ [])) done.length (done ++ (lead ++ (t ++ []))).length :=
      quiet_of_text hlead (.inl ⟨rfl, rfl⟩) hnone
    rw [List.append_nil (lead ++ (t ++ []))] at hquiet
    refine ⟨_, ?_, said_leading_of_text hlead Text.allBlank_nil hne htrim done.length⟩
    rw [List.append_nil] at hquiet ⊢
    exact .rest hquiet
  | text t :: text u :: items, _, _, _, _, _, hapart => by
    exact absurd (List.isChain_cons_cons.1 hapart).1 id
  | text t :: command trigger phrase :: items, done, lead, hlead, _, hsay, hapart => by
    rw [List.forall_mem_cons, List.forall_mem_cons] at hsay
    obtain ⟨ht, hcommand, hitems⟩ := hsay
    exact exists_cuts_text hlead ht hcommand fun done' =>
      exists_cuts locale items done' (space items) (allBlank_space items)
        (fun h => isBoundary_space h done') hitems hapart.of_cons.of_cons
  | command trigger phrase :: items, done, lead, hlead, hbefore, hsay, hapart => by
    obtain ⟨hcommand, hitems⟩ := List.forall_mem_cons.1 hsay
    have hquiet : Trigger.Quiet false Context.defaultTriggers
        (done ++ (lead ++ script (command trigger phrase :: items))) done.length
        (done ++ lead).length := Trigger.quiet_of_allBlank Context.defaultTriggers_usable hlead
    obtain ⟨ss, hss, hsaid⟩ := exists_cuts_command hcommand (hbefore (List.cons_ne_nil _ _))
      hquiet fun done' =>
        exists_cuts locale items done' (space items) (allBlank_space items)
          (fun h => isBoundary_space h done') hitems hapart.of_cons
    refine ⟨_, hss, ?_⟩
    rw [said_append, hsaid, said_leading_of_allBlank hlead]
    rfl

/-! ## what the commands of a script mean -/

/-- the trigger that was spoken is the first one that the grammar finds -/
theorem afterTrigger?_of_default {t : Text} (h : t ∈ Context.defaultTriggers) (rest : Text) :
    Command.afterTrigger? (t ++ ' ' :: rest) Context.defaultTriggers = some rest := by
  have hnormal : ∀ u ∈ Context.defaultTriggers, Command.normalize u = u := by decide
  have hleaves : Command.Leaves t (t ++ ' ' :: rest) rest := .inr (by rw [hnormal t h])
  rcases List.mem_cons.1 h with rfl | htail
  · exact Command.afterTrigger?_cons_of_leaves hleaves _
  · obtain rfl := List.mem_singleton.1 htail
    -- the two triggers differ after five letters
    have hdiffer (r s : Text) : "voice mark".toList ++ r ≠ "voicemark".toList ++ s := by
      intro h
      have htake := congrArg (List.take 6) h
      rw [List.take_append_of_le_length (by decide), List.take_append_of_le_length (by decide)]
        at htake
      exact absurd htake (by decide)
    refine (Command.afterTrigger?_cons_of_not_leaves (fun r hr => ?_) _).trans
      (Command.afterTrigger?_cons_of_leaves hleaves _)
    rw [Command.Leaves, hnormal _ List.mem_cons_self] at hr
    rcases hr with ⟨hr, -⟩ | hr
    · exact hdiffer _ [] (by rw [hr, List.append_nil])
    · exact hdiffer _ _ hr

theorem interpret_of_sayable (locale : Text) (h : (command trigger phrase).Sayable) :
    Command.interpret (Context.ofOptions locale [] false) (Inline.spoken trigger phrase) =
      Command.parse (Command.meant (Context.ofOptions locale [] false)
        (phrase.map Char.toLower)) := by
  obtain ⟨htrigger, hphrase⟩ := h
  obtain ⟨-, -, hsqueeze⟩ := Context.defaultTriggers_small _ htrigger
  have hlower := Command.lower_of_map_toLower hphrase
  rw [← hlower] at hphrase ⊢
  have hmeant := Command.meant_mem (Context.ofOptions locale [] false) hphrase
  have husable : Context.Usable trigger := by
    refine ⟨?_, Text.squeeze_of_map_caseKey (Context.map_caseKey_of_default htrigger) hsqueeze⟩
    rintro rfl
    exact absurd htrigger (by decide)
  have hone : Command.normalizeIn (Context.ofOptions locale [] false) trigger =
      trigger.map Char.toLower := by
    unfold Command.normalizeIn Command.normalize
    rw [Text.lower_of_ascii (Context.ascii_of_default htrigger), hsqueeze]
    split
    · exact Context.defaultTriggers_kept _ htrigger
    · rfl
  have hall : Command.normalizeIn (Context.ofOptions locale [] false)
      (Inline.spoken trigger phrase) = trigger.map Char.toLower ++
        ' ' :: Command.meant (Context.ofOptions locale [] false) phrase.lower := by
    rw [← hone, ← Command.normalizeIn_spoken _ husable hphrase]
    have hspelling := Command.normalize_of_spelling Text.allBlank_nil (List.cons_ne_nil ' ' [])
      (by decide) Text.allBlank_nil hphrase trigger
    rw [List.nil_append, List.append_nil] at hspelling
    rw [Command.normalizeIn, Command.normalizeIn, ← hspelling]
    rfl
  have hafter := afterTrigger?_of_default htrigger
    (Command.meant (Context.ofOptions locale [] false) phrase.lower)
  rw [← hall] at hafter
  rw [Command.interpret_of_afterTrigger? hafter, if_neg (Command.phrases_usable _ hmeant).1]

/-- **Speaking a script and scanning it gives the script back.**  The default triggers are listened
for in any locale, without clean-up.  The script has text in which no trigger is heard, without
blanks at its ends and never twice in a row, and commands: a trigger and a phrase in any case.  Of
what was spoken, with single spaces between the items, the scan makes the items and gaps, in order:
text as it is, and commands with the trigger as it was spoken and the phrase as it is listed.  No
trigger is left alone, and each command is read as what was meant. -/
theorem ofText_script (locale : Text) (items : List Item) (hsay : ∀ i ∈ items, i.Sayable)
    (hapart : items.IsChain Apart) :
    let ctx := Context.ofOptions locale [] false
    said (ofText ctx (script items)) = items.map heard ∧
      (∀ s ∈ ofText ctx (script items), s.kind ≠ .trigger) ∧
      ∀ trigger phrase, command trigger phrase ∈ items →
        Command.interpret ctx (Inline.spoken trigger phrase) =
          Command.parse (Command.meant ctx (phrase.map Char.toLower)) := by
  intro ctx
  obtain ⟨ss, hcuts, hsaid⟩ := exists_cuts locale items [] [] rfl (fun _ => rfl) hsay hapart
  have hss : ofText ctx (script items) = ss := cuts_iff.1 hcuts
  rw [hss]
  refine ⟨hsaid, fun s hs hkind => ?_, fun trigger phrase hcommand => ?_⟩
  · have hgap : s.isGap = false := isGap_of_kind (by rw [hkind]; exact Kind.noConfusion)
    have hmem : s.shown ∈ said ss :=
      List.mem_map_of_mem (List.mem_filter.2 ⟨hs, by rw [hgap]; rfl⟩)
    rw [hsaid, shown, hkind] at hmem
    obtain ⟨i, -, hi⟩ := List.mem_map.1 hmem
    cases i with
    | text t => cases hi
    | command trigger phrase => cases hi
  · exact interpret_of_sayable locale (hsay _ hcommand)

/-- two texts and two commands -/
theorem letter_script_heard :
    said (ofText (Context.ofOptions "en-US".toList [] false)
        "Dear Ann voicemark comma VOICE mark New Line thanks".toList) =
      [(.text, "Dear Ann".toList),
        (.command "voicemark".toList "comma".toList false, "voicemark comma".toList),
        (.command "VOICE mark".toList "new line".toList false, "VOICE mark New Line".toList),
        (.text, "thanks".toList)] := by
  have hquiet : ∀ t ∈ ["Dear Ann".toList, "thanks".toList],
      Trigger.next? false Context.defaultTriggers none t = none := by decide +kernel
  refine (ofText_script "en-US".toList
    [text "Dear Ann".toList, command "voicemark".toList "comma".toList,
      command "VOICE mark".toList "New Line".toList, text "thanks".toList] ?_ ?_).1
  · simp only [List.forall_mem_cons]
    refine ⟨⟨by decide, by decide, ?_⟩, ⟨by decide, by decide⟩, ⟨by decide, by decide⟩,
      ⟨by decide, by decide, ?_⟩, fun i hi => absurd hi List.not_mem_nil⟩
    · exact Trigger.not_occurs_of_next? (hquiet _ (by simp))
    · exact Trigger.not_occurs_of_next? (hquiet _ (by simp))
  · exact .cons_cons trivial (.cons_cons trivial (.cons_cons trivial (.singleton _)))

end
end Item
end Dictation
