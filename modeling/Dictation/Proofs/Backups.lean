import Dictation.Proofs.Registration

/-!
# What backups keep

A backup is named for the second of its run.  Over any number of registrations, with edits of the
settings between them, the backup of a second has what the last run of that second overwrote; all
that was overwritten is kept if no two runs are in one second.

* `Settings.Moment.stamp_eq_iff`     two readings of the clock with one stamp;
* `Settings.lookup_keep`             the backups after one more was put among them;
* `CommandLine.Registers`            a run that succeeds; what it does with the backups;
* `CommandLine.History`              runs and edits, one after the other;
* `CommandLine.History.backups_kept` the backups after all of them.
-/

namespace Dictation

namespace Settings

/-! ## names -/

namespace Moment

/-- nothing differs but what is finer than the second -/
def SameSecond (m m' : Moment) : Prop := { m with microsecond := m'.microsecond } = m'

instance (m m' : Moment) : Decidable (SameSecond m m') := inferInstanceAs (Decidable (_ = _))

/-- a stamp stands for one second -/
theorem stamp_eq_iff {m m' : Moment} : m.stamp = m'.stamp ↔ m.SameSecond m' := by
  obtain ⟨year, month, day, hour, minute, second, fine⟩ := m
  obtain ⟨year', month', day', hour', minute', second', fine'⟩ := m'
  have htwo : Nat.pow 10 2 = 100 := rfl
  rw [stamp, stamp, Decimal.fixed_append_inj year.isLt year'.isLt,
    Decimal.fixed_append_inj (by omega) (by omega), Decimal.fixed_append_inj (by omega) (by omega),
    Decimal.fixed_append_inj (by omega) (by omega), Decimal.fixed_append_inj (by omega) (by omega),
    Decimal.fixed_inj (by omega) (by omega)]
  simp only [SameSecond, Moment.mk.injEq, Fin.ext_iff, and_true]

end Moment

theorem backupName_inj {s t : Text} : backupName s = backupName t ↔ s = t := by
  rw [backupName, backupName, List.append_assoc, List.append_assoc, List.append_cancel_left_eq,
    List.cons_append, List.cons_append, List.cons.injEq, List.append_cancel_right_eq]
  exact and_iff_right rfl

/-! ## one more backup -/

theorem lookup_keep (name : Text) (bytes : Bytes) (bs : List (Text × Bytes)) (n : Text) :
    (keep name bytes bs).lookup n = if n = name then some bytes else bs.lookup n := by
  have hcons (n' : Text) (b : Bytes) (bs : List (Text × Bytes)) :
      List.lookup n ((n', b) :: bs) = if n = n' then some b else bs.lookup n := by
    rw [List.lookup_cons]
    by_cases h : n = n'
    · rw [if_pos h, beq_iff_eq.2 h]
    · rw [if_neg h, beq_eq_false_iff_ne.2 h]
  induction bs with
  | nil => exact hcons name bytes []
  | cons b bs ih =>
    obtain ⟨n', b'⟩ := b
    rw [keep, hcons]
    by_cases hn : n' = name
    · rw [if_pos hn, hcons, hn]
      by_cases h : n = name
      · rw [if_pos h, if_pos h]
      · rw [if_neg h, if_neg h, if_neg h]
    · rw [if_neg hn, hcons, ih]
      by_cases h : n = n'
      · rw [if_pos h, if_pos h, if_neg (h ▸ hn)]
      · rw [if_neg h, if_neg h]

end Settings

namespace CommandLine
open Settings

/-! ## one run -/

/-- a registration at this time that succeeds, with these files before it and after it -/
def Registers (m : Moment) (f f' : Files) : Prop :=
  ∃ (w : Surroundings) (verbose own : Bool), w.settings = f ∧ w.stamp = m.stamp ∧
    (w.report verbose (.register own)).exit = 0 ∧ (w.report verbose (.register own)).settings = f'

section
variable {f f' : Files} {m : Moment} {bytes : Bytes}

/-- a run that knows no path to the settings fails -/
theorem exists_path_of_exit {w : Surroundings} {verbose own : Bool}
    (h : (w.report verbose (.register own)).exit = 0) : ∃ path, w.settingsPath = some path := by
  cases hpath : w.settingsPath with
  | some path => exact ⟨path, rfl⟩
  | none =>
    simp only [Surroundings.report, Surroundings.register, hpath] at h
    cases h

theorem Registers.backups_of_some (h : Registers m f f') (hf : f.settings = some bytes) :
    f'.backups = keep (backupName m.stamp) bytes f.backups := by
  obtain ⟨w, verbose, own, rfl, hstamp, hexit, rfl⟩ := h
  obtain ⟨path, hpath⟩ := exists_path_of_exit hexit
  by_cases hnew : ∃ v new, Reads bytes v ∧ Settings.register (w.entry own) v = .ok new
  · obtain ⟨v, new, hv, hnew⟩ := hnew
    rw [(Surroundings.report_of_register hpath hf verbose hv hnew).2, hstamp]
  · have hfail : (w.report verbose (.register own)).exit = 1 :=
      (Surroundings.report_of_not_register hpath hf verbose
        fun v hv new h => hnew ⟨v, new, hv, h⟩).1
    rw [hfail] at hexit
    cases hexit

/-- where there was nothing, nothing is kept -/
theorem Registers.backups_of_none (h : Registers m f f') (hf : f.settings = none) :
    f'.backups = f.backups := by
  obtain ⟨w, verbose, own, rfl, -, hexit, rfl⟩ := h
  obtain ⟨path, hpath⟩ := exists_path_of_exit hexit
  rw [Surroundings.settings_register hpath, Files.run, hf]
  dsimp only
  rw [Files.write]
  split <;> rfl

/-! ## runs and edits -/

/-- registrations that succeed, one after the other, and edits of the settings between them; the log
has the time of each one that overwrote settings, and what it overwrote, the latest first -/
inductive History (f₀ : Files) : Files → List (Moment × Bytes) → Prop where
  | start : History f₀ f₀ []
  | edit {f : Files} {log : List (Moment × Bytes)} (h : History f₀ f log)
      (settings : Option Bytes) : History f₀ { f with settings } log
  | create {f f' : Files} {log : List (Moment × Bytes)} {m : Moment} (h : History f₀ f log)
      (hf : f.settings = none) (hrun : Registers m f f') : History f₀ f' log
  | overwrite {f f' : Files} {log : List (Moment × Bytes)} {m : Moment} {bytes : Bytes}
      (h : History f₀ f log) (hf : f.settings = some bytes) (hrun : Registers m f f') :
      History f₀ f' ((m, bytes) :: log)

/-- an entry of the log and no later one in its second -/
def LastOfSecond (log : List (Moment × Bytes)) (e : Moment × Bytes) : Prop :=
  ∃ later earlier, log = later ++ e :: earlier ∧ ∀ e' ∈ later, ¬ e'.1.SameSecond e.1

variable {f₀ : Files} {log : List (Moment × Bytes)} {e e' : Moment × Bytes}

theorem lastOfSecond_nil : ¬ LastOfSecond [] e := by
  rintro ⟨later, earlier, h, -⟩
  exact absurd h.symm (List.append_ne_nil_of_right_ne_nil _ (List.cons_ne_nil _ _))

theorem lastOfSecond_cons : LastOfSecond (e' :: log) e ↔
    e = e' ∨ ¬ e'.1.SameSecond e.1 ∧ LastOfSecond log e := by
  constructor
  · rintro ⟨later, earlier, h, hlater⟩
    cases later with
    | nil => exact .inl (List.cons.inj h).1.symm
    | cons x later =>
      obtain ⟨rfl, rfl⟩ := List.cons.inj h
      rw [List.forall_mem_cons] at hlater
      exact .inr ⟨hlater.1, later, earlier, rfl, hlater.2⟩
  · rintro (rfl | ⟨hother, later, earlier, rfl, hlater⟩)
    · exact ⟨[], log, rfl, fun _ h => absurd h List.not_mem_nil⟩
    · exact ⟨e' :: later, earlier, rfl, List.forall_mem_cons.2 ⟨hother, hlater⟩⟩

/-- every entry is the last of its second if no two are in one -/
theorem lastOfSecond_of_pairwise (h : log.Pairwise fun e' e => ¬ e'.1.SameSecond e.1)
    (he : e ∈ log) : LastOfSecond log e := by
  obtain ⟨later, earlier, rfl⟩ := List.append_of_mem he
  exact ⟨later, earlier, rfl, fun e' he' =>
    (List.pairwise_append.1 h).2.2 e' he' e List.mem_cons_self⟩

/-- a backup there is: what was overwritten last in its second, or an old one -/
theorem History.lookup_iff (h : History f₀ f log) (name : Text) :
    f.backups.lookup name = some bytes ↔
      (∃ m, LastOfSecond log (m, bytes) ∧ backupName m.stamp = name) ∨
      (∀ e ∈ log, backupName e.1.stamp ≠ name) ∧ f₀.backups.lookup name = some bytes := by
  induction h with
  | start => simp [lastOfSecond_nil]
  | edit _ _ ih => exact ih
  | create _ hf hrun ih => rw [hrun.backups_of_none hf, ih]
  | @overwrite f f' log m b _ hf hrun ih =>
    rw [hrun.backups_of_some hf, lookup_keep, List.forall_mem_cons]
    split
    · next hname =>
      subst hname
      constructor
      · rintro ⟨⟩
        exact .inl ⟨m, lastOfSecond_cons.2 (.inl rfl), rfl⟩
      · rintro (⟨m', hlast, hnames⟩ | ⟨⟨hne, -⟩, -⟩)
        · rcases lastOfSecond_cons.1 hlast with heq | ⟨hother, -⟩
          · rw [(Prod.mk.inj heq).2]
          · exact absurd (Moment.stamp_eq_iff.1 (backupName_inj.1 hnames.symm)) hother
        · exact absurd rfl hne
    · next hname =>
      rw [ih]
      refine or_congr (exists_congr fun m' => and_congr_left fun hnames => ?_)
        (and_congr_left fun _ => ?_)
      · have hother : ¬ m.SameSecond m' := fun hsame =>
          hname (by rw [Moment.stamp_eq_iff.2 hsame, hnames])
        rw [lastOfSecond_cons]
        refine ⟨fun hlast => .inr ⟨hother, hlast⟩, fun hor => hor.elim (fun heq => ?_) (·.2)⟩
        exact absurd ((Prod.mk.inj heq).1 ▸ rfl) hother
      · exact ⟨fun h => ⟨Ne.symm hname, h⟩, (·.2)⟩

/-- **What backups keep.**  After any registrations that succeed, at any times and with any edits of
the settings between them, the backup of a second has the bytes that the last run of that second
overwrote.  Every other backup is as it was before the first run.  So the bytes that a run overwrote
are kept unless a later run overwrote settings within the same second, and all of them are kept if
no two runs are in one second. -/
theorem History.backups_kept (h : History f₀ f log) :
    (∀ e, LastOfSecond log e → f.backups.lookup (backupName e.1.stamp) = some e.2) ∧
    (∀ name, (∀ e ∈ log, backupName e.1.stamp ≠ name) →
      f.backups.lookup name = f₀.backups.lookup name) ∧
    ((log.Pairwise fun e' e => ¬ e'.1.SameSecond e.1) →
      ∀ e ∈ log, ∃ name, f.backups.lookup name = some e.2) := by
  have hlast (e : Moment × Bytes) (he : LastOfSecond log e) :
      f.backups.lookup (backupName e.1.stamp) = some e.2 :=
    (h.lookup_iff _).2 (.inl ⟨e.1, he, rfl⟩)
  refine ⟨hlast, fun name hname => ?_, fun hapart e he =>
    ⟨_, hlast e (lastOfSecond_of_pairwise hapart he)⟩⟩
  refine Option.ext fun bytes => ?_
  rw [h.lookup_iff name]
  refine ⟨fun hor => hor.elim (fun ⟨m, hm, heq⟩ => ?_) (·.2), fun hold => .inr ⟨hname, hold⟩⟩
  obtain ⟨later, earlier, rfl, -⟩ := hm
  exact absurd heq (hname (m, bytes) (List.mem_append_right _ List.mem_cons_self))

/-! ## two runs -/

theorem exists_registers {fs servers : Fields} (hf : f.settings = some bytes)
    (hreads : Reads bytes (.obj fs)) (hs : HasServers fs servers) (m : Moment) :
    ∃ new, Registers m f ⟨some new, keep (backupName m.stamp) bytes f.backups⟩ := by
  let w : Surroundings := { settingsPath := some { names := [fileName] }, settings := f
                            interpreter := [], stamp := m.stamp }
  have hregister : Settings.register (w.entry false) (.obj fs) = .ok _ := register_of_hasServers hs
  have hreport := Surroundings.report_of_register rfl hf false hreads hregister
  exact ⟨_, w, false, false, rfl, rfl, hreport⟩

end

/-- settings without servers, and settings that someone has put in their place -/
def plainSettings : Bytes := bytesOf ((Json.obj []).write .compact)
def editedSettings : Bytes := bytesOf ((Json.obj [(serversKey, .obj [])]).write .compact)

theorem reads_plainSettings : Reads plainSettings (.obj []) :=
  reads_write Json.whole_nil Json.distinct_nil .compact

theorem reads_editedSettings : Reads editedSettings (.obj [(serversKey, .obj [])]) :=
  reads_write (.obj (List.forall_mem_singleton.2 Json.whole_nil))
    (.obj (List.nodup_singleton _) (List.forall_mem_singleton.2 Json.distinct_nil)) .compact

/-- a run, an edit and one more run -/
theorem exists_history (m m' : Moment) : ∃ f,
    History { settings := some plainSettings } f [(m', editedSettings), (m, plainSettings)] ∧
      f.backups = keep (backupName m'.stamp) editedSettings
        [(backupName m.stamp, plainSettings)] := by
  obtain ⟨new, hrun⟩ := exists_registers (f := { settings := some plainSettings }) rfl
    reads_plainSettings (.inr ⟨rfl, rfl⟩) m
  have hfirst := (History.start.overwrite rfl hrun).edit (some editedSettings)
  obtain ⟨new', hrun'⟩ := exists_registers
    (f := { settings := some editedSettings, backups := [(backupName m.stamp, plainSettings)] })
    rfl reads_editedSettings (.inl (if_pos rfl)) m'
  exact ⟨_, hfirst.overwrite rfl hrun', rfl⟩

def noon : Moment :=
  ⟨⟨2026, by decide⟩, ⟨1, by decide⟩, ⟨1, by decide⟩, ⟨12, by decide⟩, ⟨0, by decide⟩,
    ⟨0, by decide⟩, ⟨0, by decide⟩⟩

/-- a second later, both are kept -/
theorem both_kept_after_second :
    let log := [({ noon with second := ⟨1, by decide⟩ }, editedSettings), (noon, plainSettings)]
    ∃ f, History { settings := some plainSettings } f log ∧
      ∀ e ∈ log, ∃ name, f.backups.lookup name = some e.2 := by
  obtain ⟨f, h, -⟩ := exists_history noon { noon with second := ⟨1, by decide⟩ }
  obtain ⟨-, -, hkept⟩ := h.backups_kept
  exact ⟨f, h, hkept (List.pairwise_pair.2 (by decide))⟩

/-- within a second, what the first run overwrote is lost -/
theorem lost_within_second : ∃ f₀ f log, History f₀ f log ∧
    (log.Pairwise fun e' e => (compare e.1 e'.1).isLE = true) ∧
    ∃ e ∈ log, ∀ name, (name, e.2) ∉ f.backups := by
  obtain ⟨f, h, hbackups⟩ := exists_history noon { noon with microsecond := ⟨1, by decide⟩ }
  refine ⟨_, f, _, h, List.pairwise_pair.2 (by decide), (noon, plainSettings), by simp, ?_⟩
  intro name hmem
  have hname : backupName { noon with microsecond := ⟨1, by decide⟩ }.stamp = backupName noon.stamp :=
    rfl
  rw [hbackups, hname, keep, if_pos rfl, List.mem_singleton] at hmem
  have hbytes : plainSettings = editedSettings := (Prod.mk.inj hmem).2
  have hvalues := (hbytes ▸ reads_plainSettings).unique reads_editedSettings
  cases hvalues

end CommandLine
end Dictation
