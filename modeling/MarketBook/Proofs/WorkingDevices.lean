/-
Module: MarketBook.Proofs.WorkingDevices
Purpose: A device on which nothing fails stays one, whatever a cache does with it.
Main exports:
  Preserves, Device.Working, Action.working
-/
import MarketBook.Proofs.CacheRuns

namespace MarketBook

open BarCache Device Text

/-!
No operation adds a fate to the store of a device, so where all have been used up nothing fails any
more.  What every part of an operation keeps the operation keeps; so this is checked part by part,
from the single access to the disk up to whole steps of a run.
-/

/-- The operation keeps a property of states, however it ends. -/
def Preserves {σ α : Type} (holds : σ → Prop) (act : ExceptT Halt (StateM σ) α) : Prop :=
  ∀ ⦃s : σ⦄ ⦃r : Except Halt α⦄ ⦃s' : σ⦄, Ends act s r s' → holds s → holds s'

namespace Preserves

variable {σ α β : Type} {holds : σ → Prop} {act : ExceptT Halt (StateM σ) α}

theorem pure (a : α) : Preserves holds (pure a : ExceptT Halt (StateM σ) α) := by
  intro s r s' h held
  obtain ⟨-, rfl⟩ := Ends.pure_iff.1 h
  exact held

theorem throw (e : Halt) : Preserves holds (throw e : ExceptT Halt (StateM σ) α) := by
  intro s r s' h held
  obtain ⟨-, rfl⟩ := Ends.throw_iff.1 h
  exact held

theorem get : Preserves holds (get : ExceptT Halt (StateM σ) σ) := by
  intro s r s' h held
  cases h
  exact held

theorem bind {f : α → ExceptT Halt (StateM σ) β} (first : Preserves holds act)
    (rest : ∀ a, Preserves holds (f a)) : Preserves holds (act >>= f) := by
  intro s r s' h held
  rcases Ends.bind_iff.1 h with ⟨a, t, ended, h⟩ | ⟨e, ended, -⟩
  · exact rest a h (first ended held)
  · exact first ended held

theorem tryCatch {handle : Halt → ExceptT Halt (StateM σ) α} (first : Preserves holds act)
    (rest : ∀ e, Preserves holds (handle e)) : Preserves holds (tryCatch act handle) := by
  intro s r s' h held
  rcases Ends.tryCatch_iff.1 h with ⟨a, ended, -⟩ | ⟨e, t, ended, h⟩
  · exact first ended held
  · exact rest e h (first ended held)

end Preserves

/-! ### Devices on which nothing fails -/

/-- Nothing fails on the device any more, and a process uses it. -/
structure Device.Working (process : Nat) (v : Device) : Prop where
  process : v.process = process
  fates : v.fates = []

namespace Device

variable {process : Nat} {v : Device} {α : Type}

theorem Working.eq_sound (working : v.Working process) : v = sound v.disk process := by
  obtain ⟨disk, _, _⟩ := v
  obtain ⟨rfl, rfl⟩ := working
  rfl

theorem working_sound (d : Disk) (process : Nat) : (sound d process).Working process :=
  ⟨rfl, rfl⟩

theorem Working.later (working : v.Working process) : v.later.Working process :=
  ⟨working.process, by simp [Device.later, working.fates]⟩

theorem whole_working (run : Disk → Except Disk.Refusal (α × Disk))
    (onRefusal : Disk.Refusal → Outcome α) : Preserves (Working process) (whole run onRefusal) := by
  intro v r v' h working
  rcases ends_whole.1 h with
    ⟨-, -, -, rfl⟩ | ⟨-, -, -, rfl⟩ | ⟨-, ⟨a, d, -, -, rfl⟩ | ⟨e, -, -, rfl⟩⟩
  · exact working.later
  · exact working.later
  · exact ⟨working.later.process, working.later.fates⟩
  · exact working.later

theorem writeFile_working (p : Disk.Path) (content : Octets) :
    Preserves (Working process) (writeFile p content) := by
  intro v r v' h working
  rcases ends_writeFile.1 h with ⟨-, -, rfl⟩ | ⟨kept, rfl, -⟩
  · exact ⟨working.later.process, working.later.fates⟩
  · exact ⟨working.later.process, working.later.fates⟩

theorem look_working (f : Disk → Except Disk.Refusal α) : Preserves (Working process) (look f) := by
  intro v r v' h working
  rw [(ends_look.1 h).1]
  exact working

theorem ofOutcome_working (x : Outcome α) : Preserves (Working process) (ofOutcome x) := by
  intro v r v' h working
  rw [(ends_ofOutcome.1 h).2]
  exact working

theorem fail_working (cause : Fault) : Preserves (Working process) (fail cause : Act α) :=
  .throw _

theorem readFile?_working (p : Place) : Preserves (Working process) (readFile? p) :=
  whole_working _ _

theorem readText?_working (p : Place) : Preserves (Working process) (readText? p) := by
  refine .bind (readFile?_working p) fun found => ?_
  cases found with
  | none => exact .pure _
  | some content =>
      dsimp only
      split
      · exact .pure _
      · exact fail_working _

theorem withFault_working {cause : Fault} {act : Act α} (first : Preserves (Working process) act) :
    Preserves (Working process) (withFault cause act) := by
  refine .tryCatch first fun e => ?_
  cases e with
  | stopped => exact .throw _
  | fault found => exact fail_working _

theorem makeDirs_working (p : Place) : Preserves (Working process) (makeDirs p) := by
  refine .bind (whole_working _ _) fun made => ?_
  cases made with
  | ok _ => exact .pure _
  | error _ => exact fail_working _

theorem stage_working (staging : Disk.Path) (draft : Draft) :
    Preserves (Working process) (stage staging draft) := by
  refine .bind (whole_working _ _) fun _ => .bind (writeFile_working _ _) fun _ => ?_
  split
  · exact fail_working _
  · exact whole_working _ _

theorem orDiscard_working (staging : Disk.Path) {act : Act Unit}
    (first : Preserves (Working process) act) :
    Preserves (Working process) (orDiscard staging act) := by
  refine .tryCatch first fun e => ?_
  cases e with
  | stopped => exact .throw _
  | fault cause =>
      refine .bind (.tryCatch (whole_working _ _) fun e => ?_) fun _ => fail_working _
      cases e with
      | stopped => exact .throw _
      | fault _ => exact .pure _

theorem publish_working (target : Place) (draft : Draft) :
    Preserves (Working process) (publish target draft) := by
  refine .bind (makeDirs_working _) fun _ => .bind .get fun v => .bind (look_working _) fun _ => ?_
  exact .bind (orDiscard_working _ (stage_working _ _)) fun _ =>
    orDiscard_working _ (whole_working _ _)

end Device

namespace BarCache

variable {process : Nat} {α : Type}

/-- A cache works on a device on which nothing fails. -/
abbrev OnWorking (process : Nat) (s : Session) : Prop :=
  s.device.Working process

theorem onDevice_working {act : Device.Act α} (first : Preserves (Working process) act) :
    Preserves (OnWorking process) (onDevice act) := by
  intro s r s' h working
  obtain ⟨v, ended, rfl⟩ := ends_onDevice.1 h
  exact first ended working

theorem require_working (x : Outcome α) : Preserves (OnWorking process) (require x) :=
  onDevice_working (ofOutcome_working x)

theorem change_working (f : BarCache → BarCache) : Preserves (OnWorking process) (change f) := by
  intro s r s' h working
  rw [(ends_change.1 h).2]
  exact working

theorem self_working : Preserves (OnWorking process) self :=
  .bind .get fun _ => .pure _

theorem readMeta_working (c : BarCache) : Preserves (Working process) c.readMeta := by
  refine .bind (readText?_working _) fun found => ?_
  cases found with
  | none => exact .pure _
  | some text => exact ofOutcome_working _

theorem readRows_working (c : BarCache) : Preserves (Working process) c.readRows := by
  refine .bind (withFault_working (readFile?_working _)) fun found => ?_
  cases found with
  | none => exact .pure _
  | some content => exact ofOutcome_working _

theorem load_working : Preserves (OnWorking process) load :=
  .bind self_working fun c => .bind (onDevice_working c.readMeta_working) fun _ =>
    .bind (onDevice_working c.readRows_working) fun _ => change_working _

theorem append_working (incoming : List Json) :
    Preserves (OnWorking process) (append incoming) :=
  .bind self_working fun _ => .bind (require_working _) fun _ =>
    .bind (change_working _) fun _ => .pure _

theorem mergeAndTrim_working (limit : Option Nat) :
    Preserves (OnWorking process) (mergeAndTrim limit) := by
  intro s r s' h working
  rw [(ends_mergeAndTrim.1 h).2]
  exact working

theorem save_working (now : Int) : Preserves (OnWorking process) (save now) := by
  have rest : ∀ c : BarCache, Preserves (OnWorking process) (do
      change fun c' => { c' with metadata := c.metaToSave now, heartbeat := none }
      onDevice (publishContent c.tablePlace (Table.write c.rows))
      onDevice (publishContent c.metaPlace (encode (c.metaToSave now).write))) := fun c =>
    .bind (change_working _) fun _ => .bind (onDevice_working (publish_working _ _)) fun _ =>
      onDevice_working (publish_working _ _)
  refine .bind self_working fun c => ?_
  dsimp only
  split
  · exact .bind (require_working _) fun _ => rest c
  · exact rest c

theorem appendStream_working (incoming : List Json) (now : Int) :
    Preserves (OnWorking process) (appendStream incoming now) :=
  .bind load_working fun _ => .bind (append_working _) fun _ => .bind (mergeAndTrim_working _)
    fun _ => .bind (change_working _) fun _ => .bind (save_working now) fun _ => .pure _

theorem markPublished_working (opened now : Int) :
    Preserves (OnWorking process) (markPublished opened now) := by
  have rest : Preserves (OnWorking process) (do
      change fun c => { c with metadata := { c.metadata with watermark := opened } }
      save now) :=
    .bind (change_working _) fun _ => save_working now
  refine .bind (require_working _) fun _ => .bind self_working fun c => ?_
  dsimp only
  split
  · exact .bind load_working fun _ => rest
  · exact rest

end BarCache

/-- A step of the cache leaves a device on which nothing fails as one. -/
theorem Action.working (a : Action) (own : a.IsOwn) {s : Session} {process : Nat}
    (working : s.device.Working process) : (a.after s).device.Working process := by
  have preserved : Preserves (OnWorking process) a.run := by
    cases a with
    | load => exact load_working
    | loadWarmup =>
        refine .bind ?_ fun _ => .pure _
        exact .bind self_working fun c => .bind (onDevice_working c.readRows_working) fun _ =>
          .pure _
    | append incoming => exact .bind (append_working _) fun _ => .pure _
    | mergeAndTrim limit => exact .bind (mergeAndTrim_working _) fun _ => .pure _
    | save now => exact save_working now
    | appendStream incoming now => exact .bind (appendStream_working _ _) fun _ => .pure _
    | markPublished opened now => exact markPublished_working opened now
    | setHeartbeat ms =>
        intro s r s' h working
        rw [(ends_setHeartbeat.1 h).2]
        exact working
    | tamper device => exact own.elim
  exact preserved (a.ended s) working

end MarketBook
