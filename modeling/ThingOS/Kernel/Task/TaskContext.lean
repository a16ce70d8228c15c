import ThingOS.Kernel.Task.Launcher
import ThingOS.Kernel.Task.Scheduler

/-!
# Tasks keep their contexts

The context of the running task is saved through a pointer, and the context of the next task is
found by an index. As long as the vector of tasks does not move while a task is running, a task that
was preempted gets back the context it was preempted with, and `current_bundle` is the bundle that
was assigned to the running task. When the vector moves, the pointer keeps leading to the block it
has left. And on the way back to the kernel the processor does not load most registers of the
context it is handed.

Operations are steps of their own, in any order; `History` records beside them what the operations
were asked to do.
-/

namespace ThingOS

open Checked Scheduler List Function

/-- The running task, the context each task was last preempted with, and the bundle last assigned to
each. -/
structure History where
  running : Option ℕ
  preempted : ℕ → Option FullContext
  assigned : ℕ → BundleId

variable {saved : FullContext}

namespace History

def start : History := ⟨none, fun _ => none, fun _ => kernelBundleId⟩

def preempt (h : History) (saved : FullContext) : History :=
  match h.running with
  | none => h
  | some i => { h with preempted := Function.update h.preempted i (some saved) }

lemma preempt_some {h : History} {i : ℕ} (hrunning : h.running = some i) :
    h.preempt saved = { h with preempted := Function.update h.preempted i (some saved) } := by
  rw [preempt, hrunning]

def assign (h : History) (i : ℕ) (bundle : BundleId) : History :=
  { h with assigned := Function.update h.assigned i bundle }

end History

structure TaskSystem where
  scheduler : Scheduler
  launcher : Launcher
  history : History

variable {cpu : FullContext} {r : Resumed}

namespace TaskSystem

/-- What the tasks and the timer do. A vector that has to grow moves to `addr`. -/
inductive Event where
  | spawn (addr entry : ℕ) (mode : TaskMode)
  | spawnModule (addr : ℕ) (name : String)
  | startFirst (cpu : FullContext)
  | timer (saved cpu : FullContext)
  | assignBundle (task : ℕ) (bundle : BundleId)
  | assignCurrentBundle (bundle : BundleId)
  | setCurrentCr3 (cr3 : ℕ)
  | selectTask (task : ℕ)

/-- `spawn_module`: the launcher task is spawned in kernel mode at the trampoline. -/
def spawnModule (ext : Externs) (trampoline : ℕ) (sys : TaskSystem) (addr : ℕ) (name : String) :
    TaskSystem :=
  match sys.launcher.spawnModule ext name with
  | (false, _) => sys
  | (true, launcher) =>
    { sys with launcher, scheduler := sys.scheduler.spawn addr trampoline .kernel }

/-- One event, and the task that the processor goes on with if the event switches. -/
def step (ext : Externs) (trampoline : ℕ) (sys : TaskSystem) :
    Event → Except SchedulerStop (TaskSystem × Option Resumed)
  | .spawn addr entry mode =>
    .ok ({ sys with scheduler := sys.scheduler.spawn addr entry mode }, none)
  | .spawnModule addr name => .ok (sys.spawnModule ext trampoline addr name, none)
  | .startFirst cpu => do
    let (scheduler, resumed) ← sys.scheduler.startFirst cpu
    let history := { sys.history with running := some resumed.task }
    return ({ sys with scheduler, history }, some resumed)
  | .timer saved cpu => do
    let (scheduler, resumed) ← sys.scheduler.rustScheduleAndSwitch saved cpu
    let history := { sys.history.preempt saved with running := some resumed.task }
    return ({ sys with scheduler, history }, some resumed)
  | .assignBundle task bundle =>
    let history := if task < sys.scheduler.tasks.items.length then sys.history.assign task bundle
      else sys.history
    .ok ({ sys with scheduler := sys.scheduler.assignBundle task bundle, history }, none)
  | .assignCurrentBundle bundle =>
    let history := match sys.history.running with
      | none => sys.history
      | some i => sys.history.assign i bundle
    .ok ({ sys with scheduler := sys.scheduler.assignCurrentBundle bundle, history }, none)
  | .setCurrentCr3 cr3 =>
    .ok ({ sys with scheduler := sys.scheduler.setCurrentCr3 cr3 }, none)
  | .selectTask task => .ok ({ sys with scheduler := (sys.scheduler.selectTask task).2 }, none)

/-- Runs go on until something stops. -/
def next (ext : Externs) (trampoline : ℕ) (sys : Except SchedulerStop TaskSystem) (event : Event) :
    Except SchedulerStop TaskSystem := do
  let (sys, _) ← (← sys).step ext trampoline event
  return sys

def start (cr3 : ℕ) (launcher : Launcher) : TaskSystem := ⟨.new cr3, launcher, .start⟩

/-- A vector that is pushed to does not move while a task is running. -/
def PushStays (s : Scheduler) (addr : ℕ) : Prop :=
  s.currentTask = none ∨ s.tasks.items.length < s.tasks.capacity ∨ addr = s.tasks.block

def Stays (sys : TaskSystem) : Event → Prop
  | .spawn addr _ _ => PushStays sys.scheduler addr
  | .spawnModule addr name =>
    (sys.launcher.found name).isSome = true → PushStays sys.scheduler addr
  | _ => True

/-! ## The invariant -/

/-- The scheduler is where the history says: the pointer leads to the live slot of the running task,
and the slots hold the contexts and bundles. -/
structure Tracks (s : Scheduler) (h : History) : Prop where
  filled : s.Filled
  live : s.currentTask = h.running.map s.tasks.pointer
  running : ∀ i, h.running = some i → i < s.tasks.items.length
  contexts : ∀ i c, h.preempted i = some c →
    ∃ task, s.tasks.items[i]? = some (some task) ∧ task.context = c
  bundles : ∀ i task, s.tasks.items[i]? = some (some task) → task.bundle = h.assigned i
  fresh : ∀ i, s.tasks.items.length ≤ i → h.assigned i = kernelBundleId

namespace Tracks

variable {s t : Scheduler} {h h' : History} {i : ℕ} {f : Task → Task}

lemma new (cr3 : ℕ) : Tracks (.new cr3) .start where
  filled := fun _ hslot => absurd hslot not_mem_nil
  live := rfl
  running := nofun
  contexts := nofun
  bundles := nofun
  fresh _ _ := rfl

/-- Only the vector and the pointer matter. -/
lemma congr (htracks : Tracks s h) (htasks : t.tasks = s.tasks)
    (hcurrent : t.currentTask = s.currentTask) : Tracks t h where
  filled := by
    show ∀ slot ∈ t.tasks.items, slot.isSome = true
    rw [htasks]
    exact htracks.filled
  live := by rw [hcurrent, htasks, htracks.live]
  running := by rw [htasks]; exact htracks.running
  contexts := by rw [htasks]; exact htracks.contexts
  bundles := by rw [htasks]; exact htracks.bundles
  fresh := by rw [htasks]; exact htracks.fresh

/-- Change the live slot of a task, and its part of the history. -/
lemma updateAt (htracks : Tracks s h) (hrunning : h'.running = h.running)
    (hothers : ∀ j, j ≠ i → h'.preempted j = h.preempted j ∧ h'.assigned j = h.assigned j)
    (hi : i < s.tasks.items.length) (hself : ∀ task, s.tasks.items[i]? = some (some task) →
      (∀ c, h'.preempted i = some c → (f task).context = c) ∧ (f task).bundle = h'.assigned i) :
    Tracks (s.updateAt (s.tasks.pointer i) f) h' := by
  have hitems : (s.updateAt (s.tasks.pointer i) f).tasks.items
      = s.tasks.items.modify i (Option.map f) := GrowVec.items_modify_pointer
  have hlength : (s.updateAt (s.tasks.pointer i) f).tasks.items.length = s.tasks.items.length := by
    rw [hitems, length_modify]
  obtain ⟨task, htask⟩ := htracks.filled.exists_task hi
  have hnew : (s.updateAt (s.tasks.pointer i) f).tasks.items[i]? = some (some (f task)) := by
    rw [hitems, getElem?_modify_eq, htask]
    rfl
  have hold : ∀ j, j ≠ i →
      (s.updateAt (s.tasks.pointer i) f).tasks.items[j]? = s.tasks.items[j]? := by
    intro j hne
    rw [hitems, getElem?_modify_ne _ _ hne.symm]
  obtain ⟨hcontext, hbundle⟩ := hself task htask
  refine ⟨fun slot hslot => ?_, ?_, ?_, fun j c hc => ?_, fun j other hother => ?_, fun j hj => ?_⟩
  · obtain ⟨j, hj⟩ := mem_iff_getElem?.mp hslot
    rcases eq_or_ne j i with rfl | hne
    · rw [hnew] at hj
      rw [← Option.some.inj hj]
      rfl
    · rw [hold j hne] at hj
      exact htracks.filled slot (mem_of_getElem? hj)
  · rw [hrunning]
    exact htracks.live
  · rw [hrunning, hlength]
    exact htracks.running
  · rcases eq_or_ne j i with rfl | hne
    · exact ⟨_, hnew, hcontext c hc⟩
    · rw [(hothers j hne).1] at hc
      rw [hold j hne]
      exact htracks.contexts j c hc
  · grind [htracks.bundles]
  · rw [hlength] at hj
    rw [(hothers j (by omega)).2]
    exact htracks.fresh j hj

/-- A vector that stays keeps the pointer live. -/
lemma spawn {addr entry : ℕ} {mode : TaskMode} (htracks : Tracks s h)
    (hstays : PushStays s addr) : Tracks (s.spawn addr entry mode) h := by
  have hitems : (s.spawn addr entry mode).tasks.items
      = s.tasks.items ++ [some (Task.new entry s.tasks.items.length mode s.cr3)] :=
    GrowVec.items_push
  have hlength : (s.spawn addr entry mode).tasks.items.length = s.tasks.items.length + 1 := by
    rw [hitems, length_append, length_singleton]
  refine ⟨htracks.filled.spawn addr entry mode, ?_, fun i hi => ?_, fun i c hc => ?_,
    fun i task htask => ?_, fun i hi => ?_⟩
  · show s.currentTask = _
    rcases hstays with hnone | hroom
    · -- nothing is running
      have hrunning := htracks.live
      rw [hnone] at hrunning ⊢
      rw [Option.map_eq_none_iff.mp hrunning.symm]
      rfl
    · have hpointer : (s.spawn addr entry mode).tasks.pointer = s.tasks.pointer := by
        funext i
        exact congrArg (Pointer.mk · i) (GrowVec.block_push hroom)
      rw [hpointer]
      exact htracks.live
  · have := htracks.running i hi
    omega
  · obtain ⟨task, htask, hcontext⟩ := htracks.contexts i c hc
    refine ⟨task, ?_, hcontext⟩
    rw [hitems, List.getElem?_append_left (List.getElem?_eq_some_iff.mp htask).1, htask]
  · rw [hitems] at htask
    rcases Nat.lt_or_ge i s.tasks.items.length with hlt | hge
    · rw [List.getElem?_append_left hlt] at htask
      exact htracks.bundles i task htask
    · -- the new task belongs to the kernel, and nothing was assigned to its index
      rw [getElem?_append_right hge] at htask
      cases mem_singleton.mp (mem_of_getElem? htask)
      rw [htracks.fresh i hge, Task.bundle_new]
  · exact htracks.fresh i (by omega)

lemma saveCurrent (htracks : Tracks s h) (hok : s.saveCurrent saved = .ok t) :
    Tracks t (h.preempt saved) ∧ t.tasks.items.length = s.tasks.items.length := by
  unfold Scheduler.saveCurrent at hok
  rw [htracks.live] at hok
  cases hrunning : h.running with
  | none =>
    rw [hrunning] at hok
    cases hok
    rw [History.preempt, hrunning]
    exact ⟨htracks, rfl⟩
  | some i =>
    rw [hrunning] at hok
    rw [History.preempt_some hrunning]
    obtain ⟨task, -, hok⟩ := bind_eq_ok.mp hok
    obtain ⟨_, -, hok⟩ := bind_eq_ok.mp hok
    cases hok
    refine ⟨htracks.updateAt rfl (fun j hne => ⟨update_of_ne hne _ _, rfl⟩)
      (htracks.running i hrunning) fun task htask => ⟨fun c hc => ?_, ?_⟩, ?_⟩
    · dsimp only at hc
      rw [update_self] at hc
      exact Option.some.inj hc
    · exact htracks.bundles i task htask
    · show (s.tasks.modify (s.tasks.pointer i) _).items.length = _
      rw [GrowVec.items_modify_pointer, length_modify]

lemma of_nextReadyTask {found : Option (ℕ × Task)} (hok : s.nextReadyTask = .ok (t, found)) :
    t.tasks = s.tasks ∧ t.currentTask = s.currentTask
      ∧ ∀ i task, found = some (i, task) → s.tasks.items[i]? = some (some task) := by
  unfold nextReadyTask at hok
  split at hok
  · grind
  · grind

lemma switched (htracks : Tracks s h) (hi : i < s.tasks.items.length) (htasks : t.tasks = s.tasks)
    (hcurrent : t.currentTask = some (s.tasks.pointer i)) :
    Tracks t { h with running := some i } where
  filled := by
    show ∀ slot ∈ t.tasks.items, slot.isSome = true
    rw [htasks]
    exact htracks.filled
  live := by rw [hcurrent, htasks]; rfl
  running := by
    rintro j ⟨⟩
    rwa [htasks]
  contexts := by rw [htasks]; exact htracks.contexts
  bundles := by rw [htasks]; exact htracks.bundles
  fresh := by rw [htasks]; exact htracks.fresh

end Tracks

/-- What a switch hands over is what the history has for the task. -/
structure Returns (h : History) (r : Resumed) : Prop where
  saved : ∀ c, h.preempted r.task = some c → r.saved = c
  context : ∀ c, h.preempted r.task = some c → c.FromUser → r.context = c

variable {s t : Scheduler} {h : History} {i : ℕ}

lemma of_enter (hok : s.enter cpu i saved = .ok (t, r)) :
    t = s ∧ r.task = i ∧ r.saved = saved ∧ (saved.FromUser → r.context = saved) := by
  obtain ⟨_, -, hok⟩ := bind_eq_ok.mp hok
  obtain ⟨context, hcontext, hok⟩ := bind_eq_ok.mp hok
  cases hok
  refine ⟨rfl, rfl, rfl, fun huser => ?_⟩
  rw [restoreContext, if_pos huser] at hcontext
  exact (Except.ok.inj hcontext).symm

lemma Tracks.enter {u : Scheduler} {task : Task} (htracks : Tracks s h)
    (htask : s.tasks.items[i]? = some (some task)) (htasks : t.tasks = s.tasks)
    (hcurrent : t.currentTask = some (s.tasks.pointer i))
    (hok : t.enter cpu i task.context = .ok (u, r)) :
    Tracks u { h with running := some r.task } ∧ Returns h r := by
  obtain ⟨rfl, rfl, hsaved, huser⟩ := of_enter hok
  have hi := (List.getElem?_eq_some_iff.mp htask).1
  have hcontext : ∀ c, h.preempted r.task = some c → task.context = c := by
    intro c hc
    obtain ⟨other, hother, hcontext⟩ := htracks.contexts _ c hc
    cases htask.symm.trans hother
    exact hcontext
  refine ⟨htracks.switched hi htasks hcurrent, fun c hc => ?_, fun c hc hcu => ?_⟩
  · rw [hsaved, hcontext c hc]
  · rw [huser (by rwa [hcontext c hc]), hcontext c hc]

lemma Tracks.rustScheduleAndSwitch (htracks : Tracks s h)
    (hok : s.rustScheduleAndSwitch saved cpu = .ok (t, r)) :
    Tracks t { h.preempt saved with running := some r.task } ∧ Returns (h.preempt saved) r := by
  obtain ⟨s₁, hsave, hok⟩ := bind_eq_ok.mp hok
  obtain ⟨htracks₁, -⟩ := htracks.saveCurrent hsave
  obtain ⟨⟨s₂, found⟩, hnext, hok⟩ := bind_eq_ok.mp hok
  obtain ⟨htasks, hcurrent, hfound⟩ := Tracks.of_nextReadyTask hnext
  cases found with
  | some x =>
    obtain ⟨i, task⟩ := x
    obtain ⟨_, -, hok⟩ := bind_eq_ok.mp hok
    obtain ⟨_, -, hok⟩ := bind_eq_ok.mp hok
    obtain ⟨_, -, hok⟩ := bind_eq_ok.mp hok
    refine htracks₁.enter (hfound i task rfl) ?_ ?_ hok
    · exact htasks
    · dsimp only
      rw [htasks]
  | none =>
    -- no task was found: the running one goes on
    replace hok : s₂.switchBack cpu = .ok (t, r) := hok
    unfold switchBack at hok
    rw [hcurrent, htracks₁.live] at hok
    cases hrunning : (h.preempt saved).running with
    | none =>
      rw [hrunning] at hok
      cases hok
    | some i =>
      rw [hrunning] at hok
      obtain ⟨task, htask, hok⟩ := bind_eq_ok.mp hok
      obtain ⟨live, hlive⟩ := htracks₁.filled.exists_task (htracks₁.running i hrunning)
      have hread : s₂.deref (s₁.tasks.pointer i) = .ok live := by
        unfold deref
        rw [htasks, GrowVec.read_pointer, hlive]
      cases hread.symm.trans htask
      refine htracks₁.enter hlive htasks ?_ hok
      rw [hcurrent, htracks₁.live, hrunning]
      rfl

lemma Tracks.startFirst (htracks : Tracks s h) (hok : s.startFirst cpu = .ok (t, r)) :
    Tracks t { h with running := some r.task } ∧ Returns h r := by
  unfold Scheduler.startFirst at hok
  split at hok
  case h_1 task htask => refine htracks.enter htask ?_ ?_ hok <;> rfl
  case h_2 => cases hok

lemma Tracks.assign (htracks : Tracks s h) (hi : i < s.tasks.items.length) (bundle : BundleId) :
    Tracks (s.updateAt (s.tasks.pointer i) fun task => { task with bundle })
      (h.assign i bundle) := by
  refine htracks.updateAt rfl (fun j hne => ⟨rfl, update_of_ne hne _ _⟩) hi
    fun task htask => ⟨fun c hc => ?_, ?_⟩
  · obtain ⟨other, hother, hcontext⟩ := htracks.contexts i c hc
    cases htask.symm.trans hother
    exact hcontext
  · exact (update_self i bundle h.assigned).symm

lemma assignBundle_of_le (hi : s.tasks.items.length ≤ i) (bundle : BundleId) :
    s.assignBundle i bundle = s := by
  unfold assignBundle updateAt GrowVec.modify
  have hsame : (s.tasks.heap (s.tasks.pointer i).block).modify (s.tasks.pointer i).index
      (Option.map fun task => { task with bundle }) = s.tasks.items :=
    modify_eq_self hi
  rw [hsame]
  unfold GrowVec.items GrowVec.pointer
  rw [update_eq_self]

variable {ext : Externs} {trampoline : ℕ} {sys sys' : TaskSystem} {event : Event}

lemma Tracks.spawnModule {addr : ℕ} {name : String} (htracks : Tracks sys.scheduler sys.history)
    (hstays : sys.Stays (.spawnModule addr name)) :
    Tracks (sys.spawnModule ext trampoline addr name).scheduler
      (sys.spawnModule ext trampoline addr name).history := by
  unfold TaskSystem.spawnModule Launcher.spawnModule
  cases hfound : sys.launcher.found name with
  | none => exact htracks
  | some b => exact htracks.spawn (hstays (by rw [hfound]; rfl))

lemma Tracks.step {resumed : Option Resumed} (htracks : Tracks sys.scheduler sys.history)
    (hstays : sys.Stays event) (hok : sys.step ext trampoline event = .ok (sys', resumed)) :
    Tracks sys'.scheduler sys'.history ∧ ∀ r ∈ resumed, Returns sys'.history r := by
  cases event with
  | spawn addr entry mode =>
    cases hok
    exact ⟨htracks.spawn hstays, nofun⟩
  | spawnModule addr name =>
    cases hok
    exact ⟨htracks.spawnModule hstays, nofun⟩
  | startFirst cpu =>
    obtain ⟨⟨t, r⟩, hswitch, hok⟩ := bind_eq_ok.mp hok
    cases hok
    obtain ⟨ht, hr⟩ := htracks.startFirst hswitch
    exact ⟨ht, fun _ h => Option.some.inj h ▸ ⟨hr.saved, hr.context⟩⟩
  | timer saved cpu =>
    obtain ⟨⟨t, r⟩, hswitch, hok⟩ := bind_eq_ok.mp hok
    cases hok
    obtain ⟨ht, hr⟩ := htracks.rustScheduleAndSwitch hswitch
    exact ⟨ht, fun _ h => Option.some.inj h ▸ ⟨hr.saved, hr.context⟩⟩
  | assignBundle task bundle =>
    cases hok
    refine ⟨?_, nofun⟩
    split
    case isTrue hlt => exact htracks.assign hlt bundle
    case isFalse hge =>
      rw [assignBundle_of_le (Nat.not_lt.mp hge)]
      exact htracks
  | assignCurrentBundle bundle =>
    cases hok
    refine ⟨?_, nofun⟩
    rw [assignCurrentBundle, htracks.live]
    cases hrunning : sys.history.running with
    | none => exact htracks
    | some i => exact htracks.assign (htracks.running i hrunning) bundle
  | setCurrentCr3 cr3 =>
    cases hok
    refine ⟨?_, nofun⟩
    rw [setCurrentCr3, htracks.live]
    cases hrunning : sys.history.running with
    | none => exact htracks
    | some i =>
      refine htracks.updateAt rfl (fun _ _ => ⟨rfl, rfl⟩) (htracks.running i hrunning)
        fun task htask => ⟨fun c hc => ?_, htracks.bundles i task htask⟩
      obtain ⟨other, hother, hcontext⟩ := htracks.contexts i c hc
      cases htask.symm.trans hother
      exact hcontext
  | selectTask task =>
    cases hok
    refine ⟨htracks.congr (tasks_selectTask _ _) ?_, nofun⟩
    unfold selectTask
    split <;> rfl

/-- Runs in which the vector never moves while a task is running. In every state that is reached the
pointer leads to the live slot of the running task, and `current_bundle` is its bundle; whatever
switches next hands over the context the task was preempted with, and the processor goes on with it
if it came from user mode. -/
theorem context_preserved (ext : Externs) (trampoline cr3 : ℕ) (launcher : Launcher)
    (events : List Event) (hstays : EachStep (next ext trampoline)
      (fun reached event => ∀ sys, reached = .ok sys → sys.Stays event)
      (.ok (start cr3 launcher)) events) {sys : TaskSystem}
    (hrun : run (next ext trampoline) (.ok (start cr3 launcher)) events = .ok sys) :
    sys.scheduler.currentTask = sys.history.running.map sys.scheduler.tasks.pointer
      ∧ (∀ i, sys.history.running = some i →
        (∃ task, sys.scheduler.tasks.items[i]? = some (some task))
          ∧ sys.scheduler.currentBundle = .ok (sys.history.assigned i))
      ∧ ∀ event sys' r, sys.step ext trampoline event = .ok (sys', some r) →
        ∀ c, sys'.history.preempted r.task = some c →
          r.saved = c ∧ (c.FromUser → r.context = c) := by
  have htracks : Tracks sys.scheduler sys.history := by
    have hall := run_invariant_of_eachStep
      (P := fun reached => ∀ sys, reached = .ok sys → Tracks sys.scheduler sys.history) hstays
      (by rintro _ ⟨⟩; exact Tracks.new cr3) fun reached event hstays h sys hsys => by
        obtain ⟨before, hbefore, hsys⟩ := bind_eq_ok.mp hsys
        obtain ⟨⟨after, resumed⟩, hstep, hsys⟩ := bind_eq_ok.mp hsys
        cases hsys
        exact ((h before hbefore).step (hstays before hbefore) hstep).1
    exact hall sys hrun
  refine ⟨htracks.live, fun i hi => ?_, fun event sys' r hstep c hc => ?_⟩
  · obtain ⟨task, htask⟩ := htracks.filled.exists_task (htracks.running i hi)
    refine ⟨⟨task, htask⟩, ?_⟩
    have hread : sys.scheduler.deref (sys.scheduler.tasks.pointer i) = .ok task := by
      unfold deref
      rw [GrowVec.read_pointer, htask]
    rw [currentBundle, htracks.live, hi]
    show (sys.scheduler.deref (sys.scheduler.tasks.pointer i) >>= fun task =>
      pure task.bundle) = _
    rw [hread, ← htracks.bundles i task htask]
    rfl
  · -- what switches does not push
    have hnext : sys.Stays event := by
      cases event with
      | spawn addr entry mode => cases hstep
      | spawnModule addr name => cases hstep
      | _ => trivial
    have hreturns := (htracks.step hnext hstep).2 r rfl
    exact ⟨hreturns.saved c hc, hreturns.context c hc⟩

/-- A user context that is told apart by one register. -/
def userContext (rax : ℕ) : FullContext :=
  ⟨{ GeneralRegisters.zeroed with rax := rax }, ⟨0x400000, 0x33, 0x202, 0x700000000000, 0x2b⟩⟩

/-- A kernel context that is told apart by one register. -/
def kernelContext (rbx : ℕ) : FullContext :=
  ⟨{ GeneralRegisters.zeroed with rbx := rbx },
    ⟨0xffffffff80001000, 0x8, 0x202, 0xffff880010000100, 0x10⟩⟩

/-- Tasks that start at the beginning of the kernel's text, on a vector at 4096. -/
def spawnTasks (n : ℕ) : List Event :=
  List.replicate n (.spawn 0x1000 0xffffffff80000000 .kernel)

def noLauncher : Launcher := ⟨[], none, 0, []⟩

/-- What an event after others resumes, and what the history has for it. -/
def resumedAfter (events : List Event) (event : Event) : Option (Resumed × Option FullContext) :=
  match run (next crates 0) (.ok (start 0x2000 noLauncher)) events with
  | .error _ => none
  | .ok sys =>
    match sys.step crates 0 event with
    | .ok (sys', some r) => some (r, sys'.history.preempted r.task)
    | _ => none

lemma of_resumedAfter {events : List Event} {c : Option FullContext}
    (h : resumedAfter events event = some (r, c)) : ∃ sys sys',
    run (next crates 0) (.ok (start 0x2000 noLauncher)) events = .ok sys
      ∧ sys.step crates 0 event = .ok (sys', some r) ∧ sys'.history.preempted r.task = c := by
  unfold resumedAfter at h
  split at h
  · cases h
  case h_2 sys hsys =>
    split at h
    case h_1 sys' r' hstep =>
      cases h
      exact ⟨sys, sys', hsys, hstep, rfl⟩
    case h_2 => cases h

/-- Two tasks on a vector with room for four: the first is preempted in user mode, then the second,
and the first goes on with its context. -/
theorem context_preserved_twoTasks : ∃ r, resumedAfter (spawnTasks 2
      ++ [.startFirst (kernelContext 0), .timer (userContext 7) (kernelContext 0)])
        (.timer (userContext 8) (kernelContext 0)) = some (r, some (userContext 7))
    ∧ r.task = 0 ∧ r.context = userContext 7 := by
  have hresumed : (resumedAfter (spawnTasks 2
      ++ [.startFirst (kernelContext 0), .timer (userContext 7) (kernelContext 0)])
        (.timer (userContext 8) (kernelContext 0))).map (fun x => (x.1.task, x.2))
      = some (0, some (userContext 7)) := by decide +kernel
  obtain ⟨⟨r, c⟩, hr, heq⟩ := Option.map_eq_some_iff.mp hresumed
  obtain ⟨htask, rfl⟩ := Prod.mk.inj heq
  obtain ⟨sys, sys', hrun, hstep, hc⟩ := of_resumedAfter hr
  obtain ⟨-, -, hreturns⟩ := context_preserved crates 0 0x2000 noLauncher _ (by
    refine eachStep_cons.mpr ⟨?_, eachStep_cons.mpr ⟨?_, eachStep_cons.mpr ⟨?_,
      eachStep_cons.mpr ⟨?_, eachStep_nil _⟩⟩⟩⟩
    · rintro sys ⟨⟩
      exact .inl rfl
    · rintro sys ⟨⟩
      exact .inl rfl
    · exact fun _ _ => trivial
    · exact fun _ _ => trivial) hrun
  exact ⟨r, hr, htask, (hreturns _ sys' r hstep _ hc).2 (by decide)⟩

/-- The first of four tasks is running when a fifth is spawned, and the vector moves. Its context is
saved to the block the vector has left, so that it goes on from its beginning when its turn comes
again; until then `current_bundle` is that of the old slot. A task that is preempted in the kernel
loses a register even where nothing moves. -/
theorem context_lost : (resumedAfter (spawnTasks 4 ++ [.startFirst (kernelContext 0),
        .spawn 0x9000 0xffffffff80000000 .kernel, .timer (userContext 7) (kernelContext 0),
        .timer (userContext 8) (kernelContext 0), .timer (userContext 9) (kernelContext 0),
        .timer (userContext 10) (kernelContext 0)])
      (.timer (userContext 11) (kernelContext 0))).map
        (fun x => (x.1.task, x.1.saved.frame.rip, x.2))
      = some (0, 0xffffffff80000000, some (userContext 7))
    ∧ (resumedAfter (spawnTasks 1 ++ [.startFirst (kernelContext 0)])
      (.timer (kernelContext 7) (kernelContext 0))).map
        (fun x => (x.1.task, x.1.context.regs.rbx, x.2))
      = some (0, 0, some (kernelContext 7))
    ∧ ((run (next crates 0) (.ok (start 0x2000 noLauncher)) (spawnTasks 4
        ++ [.startFirst (kernelContext 0), .spawn 0x9000 0xffffffff80000000 .kernel,
          .assignBundle 0 0xb1#128])).map fun sys =>
        (sys.history.running, sys.history.assigned 0, sys.scheduler.currentBundle.toOption))
      = .ok (some 0, 0xb1#128, some kernelBundleId) := by
  refine ⟨?_, ?_, ?_⟩
  · decide +kernel
  · decide +kernel
  · decide +kernel

end TaskSystem

end ThingOS
