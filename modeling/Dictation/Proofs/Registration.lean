import Dictation.CommandLine.Report
import Dictation.Proofs.Json.Reading
import Dictation.Proofs.Text.Utf8

/-!
# Registration, all or nothing

Either a registration succeeds: the settings have the program's entry then and are otherwise as they
were, the old file is kept, and a second registration changes nothing.  Or it fails, and the file is
as it was.

* `Settings.Reads`          what a file of settings says;
* `Settings.HasServers`     what an entry can be put into;
* `Settings.Registered`     the settings with one entry set among their servers;
* `Settings.register_register`   registered twice is registered once;
* `CommandLine.Surroundings.register_all_or_nothing`   a whole run.
-/

namespace Dictation

namespace Settings

/-! ## settings with an entry -/

/-- the bytes are the text of a value -/
def Reads (bytes : Bytes) (v : Json) : Prop :=
  ∃ t, Utf8.decode bytes = .ok t ∧ Json.read? t = some v

theorem Reads.unique {bytes : Bytes} {v w : Json} (hv : Reads bytes v) (hw : Reads bytes w) :
    v = w := by
  obtain ⟨t, ht, hv⟩ := hv
  obtain ⟨u, hu, hw⟩ := hw
  rw [ht] at hu
  obtain rfl := Except.ok.inj hu
  rw [hv] at hw
  exact Option.some.inj hw

theorem Reads.distinct {bytes : Bytes} {v : Json} (h : Reads bytes v) : v.Distinct := by
  obtain ⟨t, -, ht⟩ := h
  exact Json.distinct_of_read? ht

/-- the servers of the settings are an object, an empty one if there is no key for them -/
def HasServers (fs servers : Fields) : Prop :=
  Json.get? serversKey fs = some (.obj servers) ∨ Json.get? serversKey fs = none ∧ servers = []

/-- one entry is set among the servers, and nothing else is changed -/
inductive Registered (entry : Json) : Json → Json → Prop where
  | intro {fs servers fs' servers' : Fields} (has : HasServers fs servers)
      (setEntry : Json.Sets (Json.key serverName) entry servers servers')
      (setServers : Json.Sets serversKey (.obj servers') fs fs') :
      Registered entry (.obj fs) (.obj fs')

section
variable {entry v w : Json} {fs servers : Fields}

theorem hasServers_iff :
    HasServers fs servers ↔ (Json.get? serversKey fs).getD (.obj []) = .obj servers := by
  unfold HasServers
  cases Json.get? serversKey fs with
  | none => simp [eq_comm]
  | some v => simp

/-- what holds of the values of the settings holds of the servers -/
theorem HasServers.forall {P : Json → Prop} (h : HasServers fs servers) (hnone : P (.obj []))
    (hfs : ∀ f ∈ fs, P f.2) : P (.obj servers) := by
  rcases h with h | ⟨-, rfl⟩
  · exact hfs _ (Json.mem_of_get? h)
  · exact hnone

theorem register_of_hasServers (h : HasServers fs servers) :
    register entry (.obj fs) = .ok (.obj (Json.put serversKey
      (.obj (Json.put (Json.key serverName) entry servers)) fs)) := by
  rw [register, hasServers_iff.1 h]

theorem exists_of_register (h : register entry v = .ok w) :
    ∃ fs servers, v = .obj fs ∧ HasServers fs servers := by
  unfold register at h
  split at h
  · next fs =>
    split at h
    · next servers hs => exact ⟨fs, servers, rfl, hasServers_iff.2 hs⟩
    · cases h
  · cases h

theorem registered_of_register (hv : Json.Distinct v) (h : register entry v = .ok w) :
    Registered entry v w := by
  obtain ⟨fs, servers, rfl, hs⟩ := exists_of_register h
  rw [register_of_hasServers hs] at h
  obtain rfl := Except.ok.inj h
  have hservers := hs.forall Json.distinct_nil hv.values
  exact .intro hs (Json.sets_put hservers.nodup _ _) (Json.sets_put hv.nodup _ _)

/-- registered twice is registered once -/
theorem register_register (h : register entry v = .ok w) : register entry w = .ok w := by
  obtain ⟨fs, servers, rfl, hs⟩ := exists_of_register h
  rw [register_of_hasServers hs] at h
  obtain rfl := Except.ok.inj h
  rw [register_of_hasServers (.inl (Json.get?_put_self _ _ _)),
    Json.put_of_get? (Json.get?_put_self (Json.key serverName) _ _),
    Json.put_of_get? (Json.get?_put_self _ _ _)]

theorem Registered.whole (h : Registered entry v w) (hv : Json.Whole v) (he : Json.Whole entry) :
    Json.Whole w := by
  obtain ⟨hs, hentry, hservers⟩ := h
  have hold := hs.forall Json.whole_nil hv.values
  exact .obj (hservers.forall (.obj (hentry.forall he hold.values)) hv.values)

theorem Registered.distinct (h : Registered entry v w) (hv : Json.Distinct v)
    (he : Json.Distinct entry) : Json.Distinct w := by
  obtain ⟨hs, hentry, hservers⟩ := h
  have hold := hs.forall Json.distinct_nil hv.values
  exact hv.sets (hold.sets he hentry) hservers

end

/-! ## the entry -/

theorem whole_words (ws : List Text) : Json.Whole (words ws) := by
  refine .arr fun v hv => ?_
  obtain ⟨w, -, rfl⟩ := List.mem_map.1 hv
  exact .str _

theorem distinct_words (ws : List Text) : Json.Distinct (words ws) := by
  refine .arr fun v hv => ?_
  obtain ⟨w, -, rfl⟩ := List.mem_map.1 hv
  exact .str _

theorem whole_entry (interpreter : Option Text) : Json.Whole (entry interpreter) := by
  cases interpreter <;>
  · refine .obj (List.forall_mem_cons.2 ⟨.str _, List.forall_mem_singleton.2 ?_⟩)
    exact whole_words _

theorem distinct_entry (interpreter : Option Text) : Json.Distinct (entry interpreter) := by
  have hkeys : [Json.key "command", Json.key "args"].Nodup := by decide
  cases interpreter <;>
  · refine .obj hkeys (List.forall_mem_cons.2 ⟨.str _, List.forall_mem_singleton.2 ?_⟩)
    exact distinct_words _

/-! ## the file -/

/-- what is written of settings is read as the settings, in every layout -/
theorem reads_write {v : Json} (hv : Json.Whole v) (hd : Json.Distinct v) (l : Json.Layout) :
    Reads (bytesOf (v.write l)) v := by
  refine ⟨v.write l, ?_, (hv.readsBack hd _).read?_write⟩
  rw [bytesOf, Utf8.toList_toUTF8, Utf8.decode_encode]

section
variable {f : Files} {bytes : Bytes} (hf : f.settings = some bytes)
include hf

theorem Files.run_of_reads {v : Json} (h : Reads bytes v) (stamp : Text) (entry : Json) :
    f.run stamp entry =
      write entry { f with backups := keep (backupName stamp) bytes f.backups } v := by
  obtain ⟨t, ht, hv⟩ := h
  simp only [run, hf, ht, hv]

theorem Files.run_of_register {v w : Json} {entry : Json} (h : Reads bytes v)
    (hw : register entry v = .ok w) (stamp : Text) :
    f.run stamp entry = ({ settings := some (contents w)
                           backups := keep (backupName stamp) bytes f.backups }, .registered) := by
  rw [run_of_reads hf h, write, hw]

/-- a run that does not register leaves the file as it was -/
theorem Files.run_of_not_register {entry : Json}
    (h : ∀ v, Reads bytes v → ∀ w, register entry v ≠ .ok w) (stamp : Text) :
    (f.run stamp entry).2 ≠ .registered ∧ (f.run stamp entry).1.settings = some bytes := by
  cases ht : Utf8.decode bytes with
  | error e =>
    simp only [run, hf, ht]
    exact ⟨nofun, trivial⟩
  | ok t =>
    cases hv : Json.read? t with
    | none =>
      simp only [run, hf, ht, hv]
      exact ⟨nofun, trivial⟩
    | some v =>
      have hreads : Reads bytes v := ⟨t, ht, hv⟩
      rw [run_of_reads hf hreads, write]
      cases hw : register entry v with
      | ok w => exact absurd hw (h v hreads w)
      | error e => exact ⟨nofun, hf⟩

end
end Settings

namespace CommandLine.Surroundings

open Settings

/-! ## the run -/

/-- what a run of the task puts among the servers -/
def entry (w : Surroundings) (own : Bool) : Json :=
  Settings.entry (if own then some w.interpreter else none)

/-- the interpreter counts only if it is asked for -/
theorem entry_congr {w again : Surroundings} {own : Bool}
    (h : own = true → again.interpreter = w.interpreter) : again.entry own = w.entry own := by
  unfold entry
  split
  · next hown => rw [h hown]
  · rfl

section
variable {w : Surroundings} {path : FilePath} (hpath : w.settingsPath = some path)
include hpath

theorem settings_register (verbose own : Bool) :
    (w.report verbose (.register own)).settings = (w.settings.run w.stamp (w.entry own)).1 := by
  simp only [report, register, hpath, registerAt, entry]
  split <;> rfl

section
variable {bytes : Bytes} (hbytes : w.settings.settings = some bytes) (verbose : Bool) {own : Bool}
include hbytes

/-- a run that registers -/
theorem report_of_register {v new : Json} (hv : Reads bytes v)
    (hnew : Settings.register (w.entry own) v = .ok new) :
    (w.report verbose (.register own)).exit = 0 ∧
      (w.report verbose (.register own)).settings =
        ⟨some (contents new), keep (backupName w.stamp) bytes w.settings.backups⟩ := by
  have hrun := Files.run_of_register hbytes hv hnew w.stamp
  refine ⟨?_, by rw [settings_register hpath, hrun]⟩
  rw [entry] at hrun
  simp only [report, register, hpath, registerAt, hrun]
  rfl

/-- a run that does not -/
theorem report_of_not_register
    (h : ∀ v, Reads bytes v → ∀ new, Settings.register (w.entry own) v ≠ .ok new) :
    (w.report verbose (.register own)).exit = 1 ∧
      (w.report verbose (.register own)).settings.settings = some bytes := by
  obtain ⟨hfail, hkept⟩ := Files.run_of_not_register hbytes h w.stamp
  refine ⟨?_, by rw [settings_register hpath, hkept]⟩
  rw [entry] at hfail
  simp only [report, register, hpath, registerAt]
  split
  · next hr => exact absurd hr hfail
  · rfl
  · rfl
  · rfl

end
end

/-- **A registration is all or nothing.**  If the settings are an object, and their servers are one
too or there are none, the run succeeds: the entry is set and nothing else is changed, and the old
bytes are in a backup.  If the numbers are whole, the new file is read as the new settings, and a
second run leaves its bytes as they are.  In all other cases the run fails, and the file has the
bytes that it had. -/
theorem register_all_or_nothing {w : Surroundings} {path : FilePath} {bytes : Bytes}
    (hpath : w.settingsPath = some path) (hbytes : w.settings.settings = some bytes)
    (verbose own : Bool) :
    let r := w.report verbose (.register own)
    (∀ fs servers, Reads bytes (.obj fs) → HasServers fs servers →
      r.exit = 0 ∧ (backupName w.stamp, bytes) ∈ r.settings.backups ∧
      ∃ new, Registered (w.entry own) (.obj fs) new ∧ r.settings.settings = some (contents new) ∧
        (Json.Whole (.obj fs) → Reads (contents new) new ∧
          ∀ (again : Surroundings) (path' : FilePath) (verbose' : Bool),
            again.settingsPath = some path' → again.settings.settings = r.settings.settings →
            (own = true → again.interpreter = w.interpreter) →
            (again.report verbose' (.register own)).exit = 0 ∧
              (again.report verbose' (.register own)).settings.settings = r.settings.settings)) ∧
    ((∀ fs servers, Reads bytes (.obj fs) → ¬ HasServers fs servers) →
      r.exit = 1 ∧ r.settings.settings = some bytes) := by
  intro r
  refine ⟨fun fs servers hreads hs => ?_, fun hnot => ?_⟩
  · obtain ⟨new, hregister⟩ : ∃ new, Settings.register (w.entry own) (.obj fs) = .ok new :=
      ⟨_, register_of_hasServers hs⟩
    have hold := hreads.distinct
    have hnew := registered_of_register hold hregister
    obtain ⟨hexit, hfiles⟩ := report_of_register hpath hbytes verbose hreads hregister
    have hsettings : r.settings.settings = some (contents new) := congrArg Files.settings hfiles
    have hbackups : r.settings.backups = _ := congrArg Files.backups hfiles
    refine ⟨hexit, hbackups ▸ mem_keep _ _ _, new, hnew, hsettings, fun hwhole => ?_⟩
    have hback : Reads (contents new) new := reads_write (hnew.whole hwhole (whole_entry _))
      (hnew.distinct hold (distinct_entry _)) .asciiIndented
    refine ⟨hback, fun again path' verbose' hpath' hagain hsame => ?_⟩
    have hregister' := register_register hregister
    rw [← entry_congr hsame] at hregister'
    obtain ⟨hexit', hfiles'⟩ :=
      report_of_register hpath' (hagain.trans hsettings) verbose' hback hregister'
    exact ⟨hexit', by rw [hfiles', hsettings]⟩
  · refine report_of_not_register hpath hbytes verbose fun v hv new hregister => ?_
    obtain ⟨fs, servers, rfl, hs⟩ := exists_of_register hregister
    exact hnot fs servers hv hs

/-- settings on one line that have an entry already, and settings that are a list -/
theorem register_over_entry :
    let old : Json := .obj [(serversKey, .obj [(Json.key serverName, .null)])]
    let w : Surroundings :=
      { settingsPath := some { names := [fileName] }
        settings := { settings := some (bytesOf (old.write .compact)) }
        interpreter := [], stamp := "20260101000000".toList }
    let r := w.report false (.register false)
    let again : Surroundings := { w with settings := r.settings }
    let bad : Surroundings :=
      { w with settings := { settings := some (bytesOf ((Json.arr []).write .compact)) } }
    r.exit = 0 ∧ (backupName w.stamp, bytesOf (old.write .compact)) ∈ r.settings.backups ∧
      (again.report false (.register false)).settings.settings = r.settings.settings ∧
      (bad.report false (.register false)).exit = 1 := by
  intro old w r again bad
  have hwhole : Json.Whole old :=
    .obj (List.forall_mem_singleton.2 (.obj (List.forall_mem_singleton.2 .null)))
  have hdistinct : Json.Distinct old :=
    .obj (List.nodup_singleton _) (List.forall_mem_singleton.2
      (.obj (List.nodup_singleton _) (List.forall_mem_singleton.2 .null)))
  have hlist : Reads (bytesOf ((Json.arr []).write .compact)) (.arr []) :=
    reads_write (.arr fun _ hv => absurd hv List.not_mem_nil)
      (.arr fun _ hv => absurd hv List.not_mem_nil) .compact
  obtain ⟨hexit, hbackup, new, -, -, hback⟩ :=
    (register_all_or_nothing (w := w) rfl rfl false false).1 _ _
      (reads_write hwhole hdistinct .compact) (.inl (if_pos rfl))
  obtain ⟨-, hagain⟩ := (hback hwhole).2 again _ false rfl rfl nofun
  obtain ⟨hbad, -⟩ := (register_all_or_nothing (w := bad) rfl rfl false false).2
    fun fs servers hreads => nomatch hreads.unique hlist
  exact ⟨hexit, hbackup, hagain, hbad⟩

end CommandLine.Surroundings
end Dictation
