import ThingOS.Abi.Graph
import ThingOS.Common.GrowVec
import ThingOS.Common.Run
import ThingOS.Kernel.Mm.FrameAllocator

/-!
# The task scheduler

A translation of `kernel/src/task/scheduler.rs`, of the parts of `runtime.rs` and `context.rs` that
touch tasks, and of `restore_context.S`. A timer interrupt saves the context of the running task
through the raw pointer `CURRENT_TASK`; the next task is found by its index in the vector of tasks.

The mapping of kernel stacks, the segment for the kernel stack, output and the checks that pointers
are aligned, which they always are, are left out. The block that a growing vector leaves behind is
taken to keep its contents.
-/

namespace ThingOS

open Checked List

/-! ## Contexts -/

structure GeneralRegisters where
  r15 : ℕ
  r14 : ℕ
  r13 : ℕ
  r12 : ℕ
  r11 : ℕ
  r10 : ℕ
  r9 : ℕ
  r8 : ℕ
  rsi : ℕ
  rdi : ℕ
  rbp : ℕ
  rdx : ℕ
  rcx : ℕ
  rbx : ℕ
  rax : ℕ
deriving DecidableEq

/-- What `iretq` restores. -/
structure IretFrame where
  rip : ℕ
  cs : ℕ
  rflags : ℕ
  rsp : ℕ
  ss : ℕ
deriving DecidableEq

structure FullContext where
  regs : GeneralRegisters
  frame : IretFrame
deriving DecidableEq

inductive TaskMode where
  | kernel
  | user

def GeneralRegisters.zeroed : GeneralRegisters := ⟨0, 0, 0, 0, 0, 0, 0, 0, 0, 0, 0, 0, 0, 0, 0⟩

def FullContext.zeroed : FullContext := ⟨.zeroed, ⟨0, 0, 0, 0, 0⟩⟩

def FullContext.FromUser (ctx : FullContext) : Prop := ctx.frame.cs &&& 3 ≠ 0

instance (ctx : FullContext) : Decidable ctx.FromUser := inferInstanceAs (Decidable (¬ _))

/-- The selectors are those of the table that `gdt.rs` builds. -/
def prepareContext (entry stackTop : ℕ) (mode : TaskMode) : FullContext :=
  match mode with
  | .kernel => ⟨.zeroed, ⟨entry, 0x08, 0x2, stackTop, 0x10⟩⟩
  | .user => ⟨.zeroed, ⟨entry, 0x33, 0x202, stackTop, 0x2b⟩⟩

/-- The ways the scheduler can stop. `restore_context` halts on addresses outside the kernel, and
the scheduler calls itself forever when there is no task at all; the others are panics, apart from a
pointer that leads nowhere. -/
inductive SchedulerStop where
  | remainderByZero
  | magicCorrupted
  | danglingPointer
  | nonCanonicalRsp
  | physAddr
  | nonCanonicalRip
  | ripOutsideKernelText
  | noTaskInSlotZero
  | endlessRecursion
  | haltBadRsp
  | haltBadRip
deriving DecidableEq

/-- The context the processor goes on with, where `cpu` is what it holds when `restore_context` is
called. On the way back to the kernel only `rax`, the flags and the two pointers are loaded, and
three more registers are overwritten. -/
def restoreContext (cpu ctx : FullContext) : Except SchedulerStop FullContext :=
  if ctx.FromUser then .ok ctx
  else do
    require .haltBadRsp (ctx.frame.rsp ≠ 0 ∧ ctx.frame.rsp >>> 48 = 0xffff)
    require .haltBadRip (ctx.frame.rip >>> 32 = 0xffffffff)
    let rax := ctx.regs.rax
    let regs := { cpu.regs with rax := rax, rbx := rax, rcx := ctx.frame.rip, rdx := 0xffffffff }
    return ⟨regs, ⟨ctx.frame.rip, 0x8, ctx.frame.rflags ||| 0x200, ctx.frame.rsp, cpu.frame.ss⟩⟩

/-- The checks on the instruction pointer before a context is restored. -/
def validateRip (ctx : FullContext) : Except SchedulerStop Unit := do
  require .nonCanonicalRip (ctx.frame.rip >>> 47 = 0 ∨ ctx.frame.rip >>> 47 = 0x1ffff)
  require .ripOutsideKernelText (ctx.frame.cs = 0x8 →
    0xffffffff80000000 ≤ ctx.frame.rip ∧ ctx.frame.rip < 0xffffffff90000000)

/-! ## Tasks -/

structure Task where
  entryPoint : ℕ
  stackTop : ℕ
  context : FullContext
  initialized : Bool
  mode : TaskMode
  bundle : BundleId
  cr3 : ℕ
  magic : ℕ

namespace Task

def stackSize : ℕ := 4096 * 256

def magicNumber : ℕ := 0x5441534B5F4D4147

def kernelStackRegionBase : ℕ := 0xFFFF880010000000

def stackBaseForTask (index : ℕ) : ℕ := kernelStackRegionBase + index * stackSize

def allocateStackIfNeeded (task : Task) (index : ℕ) : Task :=
  if task.stackTop = 0 then { task with stackTop := stackBaseForTask index + stackSize - 128 - 8 }
  else task

def prepareIfNeeded (task : Task) : Task :=
  if task.initialized then task
  else { task with
    context := prepareContext task.entryPoint task.stackTop task.mode, initialized := true }

def new (entry index : ℕ) (mode : TaskMode) (cr3 : ℕ) : Task :=
  let task : Task :=
    { entryPoint := entry, stackTop := 0, context := .zeroed, initialized := false, mode,
      bundle := kernelBundleId, cr3, magic := magicNumber }
  (task.allocateStackIfNeeded index).prepareIfNeeded

@[simp] lemma bundle_new (entry index : ℕ) (mode : TaskMode) (cr3 : ℕ) :
    (new entry index mode cr3).bundle = kernelBundleId := rfl

end Task

/-! ## The scheduler -/

/-- What the scheduler works on: the vector of tasks, the index in `SCHEDULER`, the two statics
beside it, and the page table register. -/
structure Scheduler where
  tasks : GrowVec (Option Task)
  current : ℕ
  currentTask : Option Pointer
  singleTask : Bool
  cr3 : ℕ

/-- The task that a switch ends in: its index, the context given to `restore_context`, and the one
the processor goes on with. -/
structure Resumed where
  task : ℕ
  saved : FullContext
  context : FullContext

namespace Scheduler

def new (cr3 : ℕ) : Scheduler := ⟨.empty, 0, none, false, cr3⟩

variable (s : Scheduler)

/-- A new task goes to the end of the vector. If that has to move, the allocator gives it `addr`. -/
def spawn (addr entry : ℕ) (mode : TaskMode) : Scheduler :=
  { s with tasks := s.tasks.push addr (some (Task.new entry s.tasks.items.length mode s.cr3)) }

/-- The index is that of the task that was found. -/
def nextReadyTask : Except SchedulerStop (Scheduler × Option (ℕ × Task)) :=
  if s.singleTask then
    match s.tasks.items[0]? with
    | some (some task) => .ok ({ s with current := 0 }, some (0, task))
    | _ => .ok (s, none)
  else if s.tasks.items.length = 0 then .error .remainderByZero
  else
    let index := (s.current + 1) % s.tasks.items.length
    match s.tasks.items[index]? with
    | some (some task) => .ok ({ s with current := index }, some (index, task))
    | _ => .ok (s, none)

def deref (p : Pointer) : Except SchedulerStop Task :=
  match s.tasks.read p with
  | some (some task) => .ok task
  | _ => .error .danglingPointer

def updateAt (p : Pointer) (f : Task → Task) : Scheduler :=
  { s with tasks := s.tasks.modify p (Option.map f) }

def incomingMode (saved : FullContext) : TaskMode :=
  if saved.frame.cs &&& 3 = 3 then .user else .kernel

def saveCurrent (saved : FullContext) : Except SchedulerStop Scheduler :=
  match s.currentTask with
  | none => .ok s
  | some p => do
    let task ← s.deref p
    require .magicCorrupted (task.magic = Task.magicNumber)
    return s.updateAt p fun task => { task with mode := incomingMode saved, context := saved }

/-- Validate a context and go on with it. -/
def enter (cpu : FullContext) (index : ℕ) (saved : FullContext) :
    Except SchedulerStop (Scheduler × Resumed) := do
  validateRip saved
  let context ← restoreContext cpu saved
  return (s, { task := index, saved, context })

def switchTo (cpu : FullContext) (index : ℕ) (task : Task) :
    Except SchedulerStop (Scheduler × Resumed) := do
  require .magicCorrupted (task.magic = Task.magicNumber)
  let rsp := task.context.frame.rsp
  require .nonCanonicalRsp (rsp < 0x800000000000 ∨ 0xFFFF800000000000 ≤ rsp)
  require .physAddr (task.cr3 < physAddrSize)
  let s := { s with currentTask := some (s.tasks.pointer index), cr3 := maskPage task.cr3 }
  s.enter cpu index task.context

/-- Go on with the running task, as no other was found. -/
def switchBack (cpu : FullContext) : Except SchedulerStop (Scheduler × Resumed) :=
  match s.currentTask with
  | none => .error .endlessRecursion
  | some p => do s.enter cpu p.index (← s.deref p).context

/-- `saved` is what the interrupt pushed, `cpu` what the registers hold before the context of the
next task is restored. -/
def rustScheduleAndSwitch (saved cpu : FullContext) :
    Except SchedulerStop (Scheduler × Resumed) := do
  let s ← s.saveCurrent saved
  let (s, next) ← s.nextReadyTask
  match next with
  | some (index, task) => s.switchTo cpu index task
  | none => s.switchBack cpu

def startFirst (cpu : FullContext) : Except SchedulerStop (Scheduler × Resumed) :=
  match s.tasks.items[0]? with
  | some (some task) =>
    { s with currentTask := some (s.tasks.pointer 0) }.enter cpu 0 task.context
  | _ => .error .noTaskInSlotZero

def assignBundle (task : ℕ) (bundle : BundleId) : Scheduler :=
  s.updateAt (s.tasks.pointer task) fun t => { t with bundle }

def assignCurrentBundle (bundle : BundleId) : Scheduler :=
  match s.currentTask with
  | none => s
  | some p => s.updateAt p fun t => { t with bundle }

def currentBundle : Except SchedulerStop BundleId :=
  match s.currentTask with
  | none => .ok kernelBundleId
  | some p => do return (← s.deref p).bundle

def setCurrentCr3 (cr3 : ℕ) : Scheduler :=
  match s.currentTask with
  | none => s
  | some p => s.updateAt p fun t => { t with cr3 }

def selectTask (task : ℕ) : Bool × Scheduler :=
  match s.tasks.items[task]? with
  | some (some _) =>
    (true, { s with current := (task + s.tasks.items.length - 1) % s.tasks.items.length })
  | _ => (false, s)

/-! ## Round robin -/

def Filled (s : Scheduler) : Prop := ∀ slot ∈ s.tasks.items, slot.isSome = true

variable {s t : Scheduler} {i : ℕ}

lemma Filled.exists_task (h : s.Filled) (hi : i < s.tasks.items.length) :
    ∃ task, s.tasks.items[i]? = some (some task) := by
  obtain ⟨task, htask⟩ := Option.isSome_iff_exists.mp (h _ (getElem_mem hi))
  exact ⟨task, by rw [getElem?_eq_getElem hi, htask]⟩

lemma Filled.spawn (h : s.Filled) (addr entry : ℕ) (mode : TaskMode) :
    (s.spawn addr entry mode).Filled := by
  intro slot hslot
  rw [Scheduler.spawn, GrowVec.items_push, mem_append, mem_singleton] at hslot
  rcases hslot with hslot | rfl
  · exact h slot hslot
  · rfl

/-- The operations whose calls make up a run. -/
inductive Operation where
  | spawn (addr entry : ℕ) (mode : TaskMode)
  | selectTask (task : ℕ)
  | nextReadyTask

/-- A call that panics is the end; the state stays as it was. -/
def step (s : Scheduler) : Operation → Scheduler
  | .spawn addr entry mode => s.spawn addr entry mode
  | .selectTask task => (s.selectTask task).2
  | .nextReadyTask =>
    match s.nextReadyTask with
    | .ok (t, _) => t
    | .error _ => s

/-- With a task and single-task mode off, the next index is taken. -/
lemma nextReadyTask_eq (hfilled : s.Filled) (hsingle : s.singleTask = false)
    (hpos : 0 < s.tasks.items.length) :
    ∃ task, s.tasks.items[(s.current + 1) % s.tasks.items.length]? = some (some task)
      ∧ s.nextReadyTask = .ok ({ s with current := (s.current + 1) % s.tasks.items.length },
        some ((s.current + 1) % s.tasks.items.length, task)) := by
  obtain ⟨task, htask⟩ := hfilled.exists_task (Nat.mod_lt (s.current + 1) hpos)
  refine ⟨task, htask, ?_⟩
  unfold nextReadyTask
  rw [hsingle, if_neg Bool.false_ne_true, if_neg (Nat.pos_iff_ne_zero.mp hpos)]
  dsimp only
  rw [htask]

lemma nextReadyTask_nil (hsingle : s.singleTask = false) (hnil : s.tasks.items = []) :
    s.nextReadyTask = .error .remainderByZero := by
  unfold nextReadyTask
  rw [hsingle, if_neg Bool.false_ne_true, hnil]
  rfl

/-- What the runs keep: every slot holds a task, and single-task mode is off. -/
structure Steady (s : Scheduler) : Prop where
  filled : s.Filled
  single : s.singleTask = false

lemma steady_new (cr3 : ℕ) : (new cr3).Steady :=
  ⟨fun _ hslot => absurd hslot not_mem_nil, rfl⟩

lemma tasks_selectTask (s : Scheduler) (task : ℕ) : (s.selectTask task).2.tasks = s.tasks := by
  unfold selectTask
  split <;> rfl

lemma singleTask_selectTask (s : Scheduler) (task : ℕ) :
    (s.selectTask task).2.singleTask = s.singleTask := by
  unfold selectTask
  split <;> rfl

lemma Steady.step (h : s.Steady) (op : Operation) : (s.step op).Steady := by
  cases op with
  | spawn addr entry mode => exact ⟨h.filled.spawn addr entry mode, h.single⟩
  | selectTask task =>
    refine ⟨?_, (singleTask_selectTask s task).trans h.single⟩
    show ∀ slot ∈ (s.selectTask task).2.tasks.items, slot.isSome = true
    rw [tasks_selectTask]
    exact h.filled
  | nextReadyTask =>
    rcases Nat.eq_zero_or_pos s.tasks.items.length with hzero | hpos
    · rw [Scheduler.step, nextReadyTask_nil h.single (length_eq_zero_iff.mp hzero)]
      exact h
    · obtain ⟨task, -, hnext⟩ := nextReadyTask_eq h.filled h.single hpos
      rw [Scheduler.step, hnext]
      exact ⟨h.filled, h.single⟩

/-- The indices that so many calls return, one after the other. -/
def consecutive (s : Scheduler) : ℕ → Except SchedulerStop (List (Option ℕ))
  | 0 => .ok []
  | n + 1 => do
    let (t, next) ← s.nextReadyTask
    let rest ← t.consecutive n
    return next.map (·.1) :: rest

lemma consecutive_eq (h : s.Steady) (hpos : 0 < s.tasks.items.length) (n : ℕ) :
    s.consecutive n = .ok ((List.range n).map fun k =>
      some ((s.current + 1 + k) % s.tasks.items.length)) := by
  induction n generalizing s with
  | zero => rfl
  | succ n ih =>
    obtain ⟨task, -, hnext⟩ := nextReadyTask_eq h.filled h.single hpos
    have hrest := ih (s := { s with current := (s.current + 1) % s.tasks.items.length })
      ⟨h.filled, h.single⟩ hpos
    rw [consecutive, hnext, ok_bind]
    dsimp only
    rw [hrest, ok_bind, range_succ_eq_map, map_cons, map_map]
    -- the later calls start one further on, modulo the number of tasks
    have hshift : ∀ k, ((s.current + 1) % s.tasks.items.length + 1 + k) % s.tasks.items.length
        = (s.current + 1 + (k + 1)) % s.tasks.items.length := by
      intro k
      rw [Nat.add_assoc, Nat.mod_add_mod, Nat.add_comm 1 k]
    simp only [hshift, Function.comp_def, Option.map_some, Nat.add_zero, Nat.succ_eq_add_one]
    rfl

/-- Walking around once visits every index once. -/
lemma perm_range_rotate (start n : ℕ) :
    ((List.range n).map fun k => (start + k) % n).Perm (List.range n) := by
  have hrotate : ((List.range n).map fun k => (start + k) % n) = (List.range n).rotate start := by
    refine ext_getElem (by simp) fun k hk hk' => ?_
    simp [getElem_rotate, Nat.add_comm]
  rw [hrotate]
  exact rotate_perm _ _

def spawnAll (s : Scheduler) (spawns : List (ℕ × ℕ × TaskMode)) : Scheduler :=
  spawns.foldl (fun s x => s.spawn x.1 x.2.1 x.2.2) s

lemma Steady.spawnAll (h : s.Steady) (spawns : List (ℕ × ℕ × TaskMode)) :
    (s.spawnAll spawns).Steady := by
  induction spawns generalizing s with
  | nil => exact h
  | cons x spawns ih => exact ih (h.step (.spawn x.1 x.2.1 x.2.2))

lemma current_spawnAll (spawns : List (ℕ × ℕ × TaskMode)) :
    (s.spawnAll spawns).current = s.current := by
  induction spawns generalizing s with
  | nil => rfl
  | cons x spawns ih => exact ih

lemma length_spawnAll (spawns : List (ℕ × ℕ × TaskMode)) :
    (s.spawnAll spawns).tasks.items.length = s.tasks.items.length + spawns.length := by
  induction spawns generalizing s with
  | nil => rfl
  | cons x spawns ih =>
    have hone : (s.spawn x.1 x.2.1 x.2.2).tasks.items.length = s.tasks.items.length + 1 := by
      rw [Scheduler.spawn, GrowVec.items_push, length_append, length_singleton]
    have hrest := ih (s := s.spawn x.1 x.2.1 x.2.2)
    rw [hone] at hrest
    rw [length_cons, Nat.add_comm spawns.length 1, ← Nat.add_assoc]
    exact hrest

lemma of_selectTask (h : s.selectTask i = (true, t)) : i < s.tasks.items.length
    ∧ t = { s with current := (i + s.tasks.items.length - 1) % s.tasks.items.length } := by
  unfold selectTask at h
  split at h
  case h_1 task htask =>
    cases h
    exact ⟨(List.getElem?_eq_some_iff.mp htask).1, rfl⟩
  case h_2 => cases h

/-- The index after the one before `i`, when `k` tasks came in between. For the first task the index
before it is the last one, and a new task takes the place after that. -/
lemma index_after_select {n k : ℕ} (hi : i < n) :
    ((i + n - 1) % n + 1) % (n + k) = if k = 0 ∨ i ≠ 0 then i else n := by
  rcases Nat.eq_zero_or_pos i with rfl | hpos
  · rw [Nat.zero_add, Nat.mod_eq_of_lt (Nat.sub_one_lt_of_lt hi), Nat.sub_add_cancel hi]
    split
    case isTrue hk => rw [hk.resolve_right (by simp), Nat.add_zero, Nat.mod_self]
    case isFalse hk => exact Nat.mod_eq_of_lt (by omega)
  · have hbefore : (i + n - 1) % n = i - 1 := by
      rw [show i + n - 1 = i - 1 + n by omega, Nat.add_mod_right, Nat.mod_eq_of_lt (by omega)]
    rw [hbefore, Nat.sub_add_cancel hpos, Nat.mod_eq_of_lt (by omega), if_pos (.inr hpos.ne')]

/-- A selected task is the next one, also when tasks are spawned in between, unless it is the
first. -/
lemma next_of_selectTask (h : s.Steady) (hselect : s.selectTask i = (true, t))
    (spawns : List (ℕ × ℕ × TaskMode)) :
    (∃ u task, (t.spawnAll spawns).nextReadyTask = .ok (u, some (i, task)))
      ↔ spawns = [] ∨ i ≠ 0 := by
  obtain ⟨hi, ht⟩ := of_selectTask hselect
  have hsteady : t.Steady := by
    rw [ht]
    exact ⟨h.filled, h.single⟩
  have hu := hsteady.spawnAll spawns
  have hlength : (t.spawnAll spawns).tasks.items.length = s.tasks.items.length + spawns.length := by
    rw [length_spawnAll, ht]
  obtain ⟨task, -, hnext⟩ := nextReadyTask_eq hu.filled hu.single (by omega)
  have hindex : ((t.spawnAll spawns).current + 1) % (t.spawnAll spawns).tasks.items.length
      = if spawns.length = 0 ∨ i ≠ 0 then i else s.tasks.items.length := by
    rw [hlength, current_spawnAll, ht]
    exact index_after_select hi
  rw [hindex] at hnext
  rw [hnext, ← length_eq_zero_iff]
  split
  case isTrue hcase => exact iff_of_true ⟨_, task, rfl⟩ hcase
  case isFalse hcase =>
    refine iff_of_false ?_ hcase
    rintro ⟨u, task', heq⟩
    cases heq
    exact absurd hi (Nat.lt_irrefl _)

/-- What is asked of `next_ready_task` in a state, if the task `i` is selected there and some tasks
are spawned before the next call. -/
structure Fair (s : Scheduler) (i : ℕ) (spawns : List (ℕ × ℕ × TaskMode)) : Prop where
  safe : ∃ result, s.nextReadyTask = .ok result
  none_iff : (∃ t, s.nextReadyTask = .ok (t, none)) ↔ s.tasks.items = []
  selected : ∀ t, s.selectTask i = (true, t) →
    ∃ u task, (t.spawnAll spawns).nextReadyTask = .ok (u, some (i, task))
  eachOnce : 0 < s.tasks.items.length →
    ∃ order : List ℕ, s.consecutive s.tasks.items.length = .ok (order.map some)
      ∧ order.Perm (List.range s.tasks.items.length)

/-- The first task can always be selected. -/
lemma exists_selectTask_zero (h : s.Steady) (hpos : 0 < s.tasks.items.length) :
    ∃ t, s.selectTask 0 = (true, t) := by
  obtain ⟨task, htask⟩ := Option.isSome_iff_exists.mp (h.filled _ (List.getElem_mem hpos))
  rw [selectTask, List.getElem?_eq_getElem hpos, htask]
  exact ⟨_, rfl⟩

/-- In every state that is reached, `next_ready_task` is safe and fair if and only if there is a
task and nothing is spawned between the selection of the first task and the next call. -/
theorem fair_iff_task (cr3 : ℕ) (ops : List Operation) (i : ℕ)
    (spawns : List (ℕ × ℕ × TaskMode)) :
    Fair (run step (new cr3) ops) i spawns
      ↔ (run step (new cr3) ops).tasks.items ≠ [] ∧ (i = 0 → spawns = []) := by
  have h : (run step (new cr3) ops).Steady :=
    run_invariant ops (steady_new cr3) fun s op hs => hs.step op
  generalize run step (new cr3) ops = s at h
  constructor
  · intro hfair
    have hne : s.tasks.items ≠ [] := by
      intro hnil
      obtain ⟨result, hok⟩ := hfair.safe
      rw [nextReadyTask_nil h.single hnil] at hok
      cases hok
    refine ⟨hne, ?_⟩
    rintro rfl
    obtain ⟨t, hselect⟩ := exists_selectTask_zero h (length_pos_iff.mpr hne)
    exact ((next_of_selectTask h hselect spawns).mp (hfair.selected t hselect)).resolve_right
      fun hzero => hzero rfl
  · rintro ⟨hne, hspawns⟩
    have hpos : 0 < s.tasks.items.length := length_pos_iff.mpr hne
    obtain ⟨task, -, hnext⟩ := nextReadyTask_eq h.filled h.single hpos
    refine ⟨⟨_, hnext⟩, iff_of_false ?_ hne, fun t hselect => ?_, fun _ => ?_⟩
    · rintro ⟨t, hnone⟩
      rw [hnext] at hnone
      cases hnone
    · refine (next_of_selectTask h hselect spawns).mpr ?_
      exact (Decidable.em (i = 0)).imp hspawns id
    · refine ⟨(List.range s.tasks.items.length).map fun k =>
        (s.current + 1 + k) % s.tasks.items.length, ?_, perm_range_rotate _ _⟩
      rw [consecutive_eq h hpos, map_map]
      rfl

/-- Without a task the remainder is taken before the vector is looked at. And the first task, when
selected, is passed over for one that is spawned before the call. -/
theorem next_without_task :
    ((new 0x1000).nextReadyTask = .error .remainderByZero ∧ ¬ Fair (new 0x1000) 0 [])
      ∧ (((new 0x1000).spawn 1 2 .kernel).selectTask 0).1 = true
      ∧ ((((((new 0x1000).spawn 1 2 .kernel).selectTask 0).2.spawn 1 2 .kernel).nextReadyTask).map
        fun x => x.2.map (·.1)) = .ok (some 1)
      ∧ ¬ Fair ((new 0x1000).spawn 1 2 .kernel) 0 [(1, 2, .kernel)] := by
  have hstop : (new 0x1000).nextReadyTask = .error .remainderByZero := rfl
  have hpassed : ((((((new 0x1000).spawn 1 2 .kernel).selectTask 0).2.spawn 1 2
      .kernel).nextReadyTask).map fun x => x.2.map (·.1)) = .ok (some 1) := rfl
  refine ⟨⟨hstop, fun h => ?_⟩, rfl, hpassed, fun h => ?_⟩
  · obtain ⟨result, hok⟩ := h.safe
    cases hstop.symm.trans hok
  · obtain ⟨u, task, hnext⟩ := h.selected _ rfl
    cases hpassed.symm.trans (congrArg _ hnext)

end Scheduler

end ThingOS
