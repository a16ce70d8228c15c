import ThingOS.Kernel.Graph.Store

/-!
# Launching user modules

A translation of the module list of `kernel/src/task/launcher.rs`, with `get_module` and
`list_modules` of `bootloader.rs`. Modules to start are appended to a list; launcher tasks take the
entries off it with a shared counter, and pass over entries without bytes. A launcher task is
followed up to the point where it has a module to load.

One call of `next_user_module` is one step, since it holds the lock of the list. The counter never
wraps: it counts at most the entries of the list and the launcher tasks, and each of these takes
memory.
-/

namespace ThingOS

open List

/-- A module the bootloader has loaded. -/
structure BootModule where
  path : String
  data : List UInt8
deriving DecidableEq

inductive BundleType where
  | driver
  | app
  | compositor
deriving DecidableEq

def endsWith (name suffix : String) : Bool := decide (suffix.toList <:+ name.toList)

def containsStr (name part : String) : Bool := decide (part.toList <:+: name.toList)

def BundleType.fromName (name : String) : BundleType :=
  if endsWith name "_driver" || name == "driver" || endsWith name "driver" then .driver
  else if endsWith name "_compositor" || name == "compositor" || endsWith name "compositor" then
    .compositor
  else .app

structure UserModule where
  name : String
  bundle : BundleId
  bundleType : BundleType
deriving DecidableEq

/-- The package node that is declared in the graph as well is left out. -/
def createUserModule (ext : Externs) (name : String) (bundleType : BundleType) : UserModule :=
  ⟨name, ext.newV5 namespaceOid name.toUTF8.data.toList, bundleType⟩

/-- Where a launcher task stands: it looks for a module, it has taken the entry of the list at an
index, or it has found the list exhausted and halts. -/
inductive LauncherTask where
  | looking
  | started (index : ℕ)
  | halted
deriving DecidableEq

/-- The modules in the order of their paths, the two statics of the launcher, and the launcher tasks
in the order they were spawned. -/
structure Launcher where
  modules : List BootModule
  userModules : Option (List UserModule)
  nextUserModule : ℕ
  tasks : List LauncherTask

namespace Launcher

def getModule (modules : List BootModule) (name : String) : Option (List UInt8) :=
  (modules.find? fun m => endsWith m.path name).map (·.data)

def elfMagic : List UInt8 := [0x7f, 0x45, 0x4c, 0x46]

def preferredApp (name : String) : Bool :=
  containsStr name "demo_app" || containsStr name "input_tester"

/-- The list without an init module: drivers, compositors, then one application. -/
def legacyModules (ext : Externs) (modules : List BootModule) : List UserModule :=
  let names := (modules.filter fun m => decide (elfMagic <+: m.data)).map (·.path)
  let ofType := fun bundleType => names.filter fun name => BundleType.fromName name = bundleType
  (ofType .driver).map (createUserModule ext · .driver)
    ++ (ofType .compositor).map (createUserModule ext · .compositor)
    ++ ((ofType .app).find? preferredApp).toList.map (createUserModule ext · .app)

/-- The entries `init_user_modules` makes. -/
def initEntries (ext : Externs) (modules : List BootModule) : List UserModule :=
  match modules.find? fun m => containsStr m.path "init" && decide (elfMagic <+: m.data) with
  | some m => [createUserModule ext m.path .app]
  | none => legacyModules ext modules

/-- `init_user_modules`, and a launcher task for each entry as `init_user_tasks` spawns them. -/
def init (ext : Externs) (modules : List BootModule) : Launcher where
  modules := modules
  userModules := some (initEntries ext modules)
  nextUserModule := 0
  tasks := List.replicate (initEntries ext modules).length .looking

/-- The module that a name stands for, if the list of modules to start exists. -/
def found (l : Launcher) (name : String) : Option BootModule :=
  match l.userModules with
  | none => none
  | some _ => l.modules.find? fun m => containsStr m.path name

/-- `spawn_module`: whether a launcher task was spawned, and the launcher after. -/
def spawnModule (ext : Externs) (l : Launcher) (name : String) : Bool × Launcher :=
  match l.found name with
  | none => (false, l)
  | some m =>
    (true, { l with
      userModules := l.userModules.map
        (· ++ [createUserModule ext m.path (BundleType.fromName m.path)])
      tasks := l.tasks ++ [.looking] })

/-- `next_user_module`; nothing is counted as long as there is no list. -/
def nextModule (l : Launcher) : Launcher × Option (ℕ × UserModule) :=
  match l.userModules with
  | none => (l, none)
  | some list =>
    ({ l with nextUserModule := l.nextUserModule + 1 },
      list[l.nextUserModule]?.map fun m => (l.nextUserModule, m))

def hasBytes (modules : List BootModule) (m : UserModule) : Bool :=
  (getModule modules m.name).getD [] ≠ []

/-- One round of the loop of `start_user_task`. -/
def look (l : Launcher) (task : ℕ) : Launcher :=
  match l.nextModule with
  | (l', none) => { l' with tasks := l'.tasks.set task .halted }
  | (l', some (index, m)) =>
    if hasBytes l.modules m then { l' with tasks := l'.tasks.set task (.started index) } else l'

/-- What can happen: a module is spawned, or a launcher task goes on. -/
inductive Event where
  | spawnModule (name : String)
  | startUserTask (task : ℕ)

def step (ext : Externs) (l : Launcher) : Event → Launcher
  | .spawnModule name => (l.spawnModule ext name).2
  | .startUserTask task => if l.tasks[task]? = some .looking then l.look task else l

/-! ## What is asked -/

def ownBytes (modules : List BootModule) (m : UserModule) : List UInt8 :=
  ((modules.find? fun b => b.path = m.name).map (·.data)).getD []

def pushed (l : Launcher) : List UserModule := l.userModules.getD []

/-- A launcher task has taken the entry at an index. -/
def StartedBy (tasks : List LauncherTask) (task index : ℕ) : Prop :=
  tasks[task]? = some (.started index)

def AllRan (l : Launcher) : Prop := LauncherTask.looking ∉ l.tasks

/-- Every pushed module with bytes was started by exactly one launcher task. -/
def ExactlyOnce (l : Launcher) : Prop :=
  ∀ index m, l.pushed[index]? = some m → ownBytes l.modules m ≠ [] →
    ∃! task, StartedBy l.tasks task index

/-- A module with bytes is found under its path, and is not pushed after the counter has passed its
place in the list. -/
def InTime (ext : Externs) (l : Launcher) : Event → Prop
  | .spawnModule name => ∀ b, l.found name = some b →
      ownBytes l.modules (createUserModule ext b.path (BundleType.fromName b.path)) ≠ [] →
      hasBytes l.modules (createUserModule ext b.path (BundleType.fromName b.path)) = true
        ∧ l.nextUserModule ≤ l.pushed.length
  | .startUserTask _ => True

/-! ## What one step does -/

variable {ext : Externs} {l : Launcher} {list : List UserModule}

/-- A launcher with a list takes one of five steps. -/
lemma step_cases (ext : Externs) (hlist : l.userModules = some list) (event : Event) :
    l.step ext event = l
    ∨ (∃ name b, event = .spawnModule name ∧ l.found name = some b ∧ l.step ext event = { l with
        userModules := some (list ++ [createUserModule ext b.path (BundleType.fromName b.path)])
        tasks := l.tasks ++ [.looking] })
    ∨ ∃ task, event = .startUserTask task ∧ l.tasks[task]? = some .looking
      ∧ ((list[l.nextUserModule]? = none ∧ l.step ext event = { l with
            nextUserModule := l.nextUserModule + 1, tasks := l.tasks.set task .halted })
        ∨ ∃ m, list[l.nextUserModule]? = some m
          ∧ (hasBytes l.modules m = false ∧ l.step ext event = { l with
                nextUserModule := l.nextUserModule + 1 }
            ∨ hasBytes l.modules m = true ∧ l.step ext event = { l with
                nextUserModule := l.nextUserModule + 1
                tasks := l.tasks.set task (.started l.nextUserModule) })) := by
  obtain ⟨modules, userModules, next, tasks⟩ := l
  cases hlist
  cases event with
  | spawnModule name =>
    cases hfound : Launcher.found ⟨modules, some list, next, tasks⟩ name with
    | none => exact .inl (by rw [step, spawnModule, hfound])
    | some b => exact .inr (.inl ⟨name, b, rfl, hfound, by rw [step, spawnModule, hfound]; rfl⟩)
  | startUserTask task =>
    by_cases hlooking : tasks[task]? = some .looking
    case neg => exact .inl (if_neg hlooking)
    refine .inr (.inr ⟨task, rfl, hlooking, ?_⟩)
    rw [step, if_pos hlooking, look, nextModule]
    dsimp only
    cases hnext : list[next]? with
    | none => exact .inl ⟨rfl, rfl⟩
    | some m =>
      grind

/-- What every run keeps, for the modules of the bootloader. The last field counts: the modules that
a launcher task can still find are no more than the launcher tasks that look for one. -/
structure Orderly (boot : List BootModule) (l : Launcher) : Prop where
  boot : l.modules = boot
  exists_list : ∃ list, l.userModules = some list
  started : ∀ task index, StartedBy l.tasks task index →
    index < l.nextUserModule ∧ ∃ m, l.pushed[index]? = some m ∧ hasBytes l.modules m = true
  unique : ∀ index task task', StartedBy l.tasks task index → StartedBy l.tasks task' index →
    task = task'
  enough : ((l.pushed.drop l.nextUserModule).filter (hasBytes l.modules)).length
    ≤ l.tasks.count .looking

variable {boot : List BootModule}

lemma orderly_init (ext : Externs) (boot : List BootModule) : Orderly boot (init ext boot) where
  boot := rfl
  exists_list := ⟨_, rfl⟩
  started task index h := by
    have hlooking := mem_replicate.mp (mem_of_getElem? h)
    cases hlooking.2
  unique index task task' h _ := by
    have hlooking := mem_replicate.mp (mem_of_getElem? h)
    cases hlooking.2
  enough := by
    refine (length_filter_le _ _).trans ?_
    simp [init, pushed]

section Tasks

variable {tasks : List LauncherTask} {task other index : ℕ} {now : LauncherTask}

lemma startedBy_set (hlooking : tasks[task]? = some .looking) :
    StartedBy (tasks.set task now) other index
      ↔ StartedBy tasks other index ∨ other = task ∧ now = .started index := by
  obtain ⟨hlt, -⟩ := List.getElem?_eq_some_iff.mp hlooking
  rcases eq_or_ne other task with rfl | hne
  · simp [StartedBy, List.getElem?_set_self hlt, hlooking]
  · simp [StartedBy, getElem?_set_ne hne.symm, hne]

lemma startedBy_append_looking :
    StartedBy (tasks ++ [.looking]) task index ↔ StartedBy tasks task index := by
  unfold StartedBy
  rcases Nat.lt_or_ge task tasks.length with hlt | hge
  · rw [List.getElem?_append_left hlt]
  · grind

lemma count_looking_set (h : tasks[task]? = some .looking) (hnow : now ≠ .looking) :
    (tasks.set task now).count .looking + 1 = tasks.count .looking := by
  obtain ⟨hlt, hget⟩ := List.getElem?_eq_some_iff.mp h
  have hpos : 0 < tasks.count .looking := by
    rw [List.count_pos_iff, ← hget]
    exact getElem_mem hlt
  rw [count_set hlt, hget, if_pos (beq_self_eq_true _), if_neg (by simpa using hnow)]
  omega

end Tasks

section Entries

variable {α : Type*} {p : α → Bool} {list : List α} {x : α} {i : ℕ}

/-- The counter moves past an entry. -/
lemma length_filter_drop (h : list[i]? = some x) : ((list.drop i).filter p).length
    = ((list.drop (i + 1)).filter p).length + if p x then 1 else 0 := by
  obtain ⟨hlt, rfl⟩ := List.getElem?_eq_some_iff.mp h
  rw [List.drop_eq_getElem_cons hlt, List.filter_cons]
  split <;> rfl

lemma getElem?_of_prefix {longer : List α} (hlonger : list <+: longer) (h : list[i]? = some x) :
    longer[i]? = some x := by
  obtain ⟨rest, rfl⟩ := hlonger
  rw [List.getElem?_append_left (List.getElem?_eq_some_iff.mp h).1, h]

lemma length_filter_drop_concat :
    (((list ++ [x]).drop i).filter p).length ≤ ((list.drop i).filter p).length + 1 := by
  rw [drop_append, filter_append, length_append]
  refine Nat.add_le_add_left ((length_filter_le _ _).trans ?_) _
  rw [length_drop]
  exact Nat.sub_le _ _

end Entries

lemma Orderly.step (h : Orderly boot l) (ext : Externs) (event : Event) :
    Orderly boot (l.step ext event) := by
  obtain ⟨list, hlist⟩ := h.exists_list
  obtain ⟨hboot, -, hstarted, hunique, henough⟩ := h
  rcases step_cases ext hlist event with heq | ⟨name, b, -, -, heq⟩
    | ⟨task, -, hlooking, ⟨hnone, heq⟩ | ⟨m, hm, ⟨hbytes, heq⟩ | ⟨hbytes, heq⟩⟩⟩
  all_goals rw [heq]; rw [pushed, hlist, Option.getD_some] at hstarted henough
  · refine ⟨hboot, ⟨list, hlist⟩, ?_, hunique, ?_⟩ <;> rwa [pushed, hlist]
  · -- one more module, one more launcher task
    refine ⟨hboot, ⟨_, rfl⟩, fun task index htask => ?_, fun index task task' ht ht' => ?_, ?_⟩
    · obtain ⟨hlt, m, hm, hbytes⟩ := hstarted task index (startedBy_append_looking.mp htask)
      refine ⟨hlt, m, ?_, hbytes⟩
      rw [← hm]
      exact List.getElem?_append_left (List.getElem?_eq_some_iff.mp hm).1
    · exact hunique index task task' (startedBy_append_looking.mp ht)
        (startedBy_append_looking.mp ht')
    · rw [count_append, count_singleton_self]
      exact length_filter_drop_concat.trans (Nat.add_le_add_right henough 1)
  · -- the list is exhausted, and nothing was left in it to find
    have hstill : ∀ other index, StartedBy (l.tasks.set task .halted) other index →
        StartedBy l.tasks other index := fun other index hother =>
      ((startedBy_set hlooking).mp hother).resolve_right (by simp)
    refine ⟨hboot, ⟨list, hlist⟩, fun other index ho => ?_, fun index other other' ho ho' => ?_, ?_⟩
    · rw [pushed, hlist]
      exact (hstarted other index (hstill _ _ ho)).imp_left Nat.lt_succ_of_lt
    · exact hunique index other other' (hstill _ _ ho) (hstill _ _ ho')
    · grind [pushed]
  · -- an entry without bytes is passed over
    refine ⟨hboot, ⟨list, hlist⟩, fun other index ho => ?_, hunique, ?_⟩
    · rw [pushed, hlist]
      exact (hstarted other index ho).imp_left Nat.lt_succ_of_lt
    · rw [length_filter_drop hm, hbytes] at henough
      rwa [pushed, hlist]
  · -- one module less, one launcher task less
    refine ⟨hboot, ⟨list, hlist⟩, fun other index ho => ?_, fun index other other' ho ho' => ?_, ?_⟩
    · rw [pushed, hlist]
      rcases (startedBy_set hlooking).mp ho with hold | ⟨-, hnew⟩
      · exact (hstarted other index hold).imp_left Nat.lt_succ_of_lt
      · cases hnew
        exact ⟨Nat.lt_succ_self _, m, hm, hbytes⟩
    · -- an index that was started before lies below the counter
      rcases (startedBy_set hlooking).mp ho with hold | ⟨rfl, hnew⟩
        <;> rcases (startedBy_set hlooking).mp ho' with hold' | ⟨rfl, hnew'⟩
      · exact hunique index other other' hold hold'
      · cases hnew'
        exact absurd (hstarted other _ hold).1 (Nat.lt_irrefl _)
      · cases hnew
        exact absurd (hstarted other' _ hold').1 (Nat.lt_irrefl _)
      · rfl
    · have hless := count_looking_set hlooking
        (LauncherTask.noConfusion : .started l.nextUserModule ≠ _)
      rw [length_filter_drop hm, hbytes, if_pos rfl, ← hless] at henough
      rw [pushed, hlist]
      exact Nat.le_of_succ_le_succ henough

lemma orderly_run (ext : Externs) (boot : List BootModule) (events : List Event) :
    Orderly boot (run (step ext) (init ext boot) events) :=
  run_invariant events (orderly_init ext boot) fun _ event h => h.step ext event

/-- The list only grows. -/
lemma Orderly.pushed_step (h : Orderly boot l) (ext : Externs) (event : Event) :
    l.pushed <+: (l.step ext event).pushed := by
  obtain ⟨list, hlist⟩ := h.exists_list
  rcases step_cases ext hlist event with heq | ⟨name, b, -, -, heq⟩
    | ⟨task, -, hlooking, ⟨hnone, heq⟩ | ⟨m, hm, ⟨hbytes, heq⟩ | ⟨hbytes, heq⟩⟩⟩
  all_goals rw [heq]
  case inr.inl =>
    rw [pushed, hlist]
    exact prefix_append _ _
  all_goals exact prefix_rfl

lemma Orderly.pushed_run (h : Orderly boot l) (ext : Externs) (events : List Event) :
    l.pushed <+: (run (Launcher.step ext) l events).pushed := by
  suffices hboth : Orderly boot (run (Launcher.step ext) l events)
      ∧ l.pushed <+: (run (Launcher.step ext) l events).pushed from hboth.2
  exact run_invariant (P := fun t => Orderly boot t ∧ l.pushed <+: t.pushed) events
    ⟨h, prefix_rfl⟩
    fun t event ht => ⟨ht.1.step ext event, ht.2.trans (ht.1.pushed_step ext event)⟩

/-! ## Modules that are lost -/

/-- The counter has passed an index that no launcher task has taken. -/
structure Lost (index : ℕ) (l : Launcher) : Prop where
  passed : index < l.nextUserModule
  free : ∀ task, ¬ StartedBy l.tasks task index

lemma Lost.step {index : ℕ} (h : Orderly boot l) (hlost : Lost index l) (ext : Externs)
    (event : Event) : Lost index (l.step ext event) := by
  obtain ⟨list, hlist⟩ := h.exists_list
  rcases step_cases ext hlist event with heq | ⟨name, b, -, -, heq⟩
    | ⟨task, -, hlooking, ⟨hnone, heq⟩ | ⟨m, hm, ⟨hbytes, heq⟩ | ⟨hbytes, heq⟩⟩⟩
  all_goals rw [heq]
  · exact hlost
  · exact ⟨hlost.passed, fun task htask => hlost.free task (startedBy_append_looking.mp htask)⟩
  · refine ⟨Nat.lt_succ_of_lt hlost.passed, fun other hother => ?_⟩
    exact hlost.free other (((startedBy_set hlooking).mp hother).resolve_right (by simp))
  · exact ⟨Nat.lt_succ_of_lt hlost.passed, hlost.free⟩
  · refine ⟨Nat.lt_succ_of_lt hlost.passed, fun other hother => ?_⟩
    rcases (startedBy_set hlooking).mp hother with hold | ⟨-, hnew⟩
    · exact hlost.free other hold
    · cases hnew
      exact absurd hlost.passed (Nat.lt_irrefl _)

lemma Lost.run {index : ℕ} (h : Orderly boot l) (hlost : Lost index l) (ext : Externs)
    (events : List Event) : Lost index (run (Launcher.step ext) l events) := by
  suffices hboth : Orderly boot (ThingOS.run (Launcher.step ext) l events)
      ∧ Lost index (ThingOS.run (Launcher.step ext) l events) from hboth.2
  exact run_invariant (P := fun t => Orderly boot t ∧ Lost index t) events ⟨h, hlost⟩
    fun t event ht => ⟨ht.1.step ext event, ht.2.step ht.1 ext event⟩

/-- No module is lost so far: each with bytes can be found, and is started once the counter has
passed it. -/
def NoneLost (l : Launcher) : Prop :=
  ∀ index m, l.pushed[index]? = some m → ownBytes l.modules m ≠ [] →
    hasBytes l.modules m = true ∧ (index < l.nextUserModule → ∃ task, StartedBy l.tasks task index)

lemma NoneLost.step (h : Orderly boot l) (hnone : NoneLost l) {event : Event}
    (htime : InTime ext l event) : NoneLost (l.step ext event) := by
  obtain ⟨list, hlist⟩ := h.exists_list
  have hpushed : l.pushed = list := by
    rw [pushed, hlist]
    rfl
  rcases step_cases ext hlist event with heq | ⟨name, b, rfl, hfound, heq⟩
    | ⟨task, -, hlooking, hcases⟩
  · rwa [heq]
  · rw [heq]
    intro index m hm hown
    replace hm : (list ++ [_])[index]? = some m := hm
    rcases Nat.lt_or_ge index list.length with hlt | hge
    · rw [List.getElem?_append_left hlt, ← hpushed] at hm
      obtain ⟨hbytes, hdone⟩ := hnone index m hm hown
      exact ⟨hbytes, fun hpassed => (hdone hpassed).imp fun _ => startedBy_append_looking.mpr⟩
    · -- the new module, which the counter has not passed
      rw [getElem?_append_right hge] at hm
      cases mem_singleton.mp (mem_of_getElem? hm)
      obtain ⟨hbytes, hle⟩ := htime b hfound hown
      rw [hpushed] at hle
      exact ⟨hbytes, fun hpassed => absurd (hpassed.trans_le (hle.trans hge)) (Nat.lt_irrefl _)⟩
  · -- the counter moves by one
    have hsame : (l.step ext event).pushed = l.pushed ∧ (l.step ext event).modules = l.modules
        ∧ (l.step ext event).nextUserModule = l.nextUserModule + 1
        ∧ (∀ other index, StartedBy l.tasks other index →
          StartedBy (l.step ext event).tasks other index)
        ∧ ∀ m, list[l.nextUserModule]? = some m → hasBytes l.modules m = true →
          StartedBy (l.step ext event).tasks task l.nextUserModule := by
      rcases hcases with ⟨hend, heq⟩ | ⟨m, hm, ⟨hbytes, heq⟩ | ⟨hbytes, heq⟩⟩ <;> rw [heq]
      · refine ⟨rfl, rfl, rfl, fun other index ho => (startedBy_set hlooking).mpr (.inl ho), ?_⟩
        intro m hm
        cases hend.symm.trans hm
      · refine ⟨rfl, rfl, rfl, fun _ _ => id, fun m' hm' hbytes' => ?_⟩
        cases hm.symm.trans hm'
        cases hbytes.symm.trans hbytes'
      · exact ⟨rfl, rfl, rfl, fun other index ho => (startedBy_set hlooking).mpr (.inl ho),
          fun _ _ _ => (startedBy_set hlooking).mpr (.inr ⟨rfl, rfl⟩)⟩
    obtain ⟨hlist', hmodules, hnext, hkept, hnew⟩ := hsame
    intro index m hm hown
    rw [hlist'] at hm
    rw [hmodules] at hown ⊢
    rw [hnext]
    obtain ⟨hbytes, hdone⟩ := hnone index m hm hown
    refine ⟨hbytes, fun hpassed => ?_⟩
    rcases Nat.lt_succ_iff_lt_or_eq.mp hpassed with hlt | rfl
    · obtain ⟨other, hother⟩ := hdone hlt
      exact ⟨other, hkept other index hother⟩
    · exact ⟨task, hnew m (hpushed ▸ hm) hbytes⟩

/-- Once all launcher tasks have run, the counter has passed every module that can be found. -/
lemma Orderly.passed {index : ℕ} {m : UserModule} (h : Orderly boot l) (hran : l.AllRan)
    (hm : l.pushed[index]? = some m) (hbytes : hasBytes l.modules m = true) :
    index < l.nextUserModule := by
  by_contra hnot
  have hzero : l.tasks.count .looking = 0 := count_eq_zero.mpr hran
  have henough := h.enough
  rw [hzero, Nat.le_zero, length_eq_zero_iff, filter_eq_nil_iff] at henough
  refine henough m ?_ hbytes
  rw [← Nat.add_sub_of_le (Nat.not_lt.mp hnot), ← getElem?_drop] at hm
  exact mem_of_getElem? hm

/-- Where every module with bytes was started, it was found under its path. -/
lemma Orderly.started_of_exactlyOnce {index : ℕ} {m : UserModule} (h : Orderly boot l)
    (honce : l.ExactlyOnce) (hm : l.pushed[index]? = some m) (hown : ownBytes boot m ≠ []) :
    hasBytes boot m = true ∧ ∃ task, StartedBy l.tasks task index := by
  obtain ⟨task, htask, -⟩ := honce index m hm (by rwa [h.boot])
  obtain ⟨-, m', hm', hbytes⟩ := h.started task index htask
  cases hm'.symm.trans hm
  exact ⟨h.boot ▸ hbytes, task, htask⟩

/-- A module that was pushed too late is never started. -/
lemma Orderly.inTime_spawnModule (h : Orderly boot l) {ext : Externs} {name : String}
    {post : List Event}
    (honce : (run (Launcher.step ext) (l.step ext (.spawnModule name)) post).ExactlyOnce) :
    InTime ext l (.spawnModule name) := by
  intro b hfound hown
  have hafter := h.step ext (.spawnModule name)
  have hend : Orderly boot (run (Launcher.step ext) (l.step ext (.spawnModule name)) post) :=
    run_invariant post hafter fun _ event h => h.step ext event
  obtain ⟨list, hlist⟩ := h.exists_list
  have hpushed : l.pushed = list := by rw [pushed, hlist]; rfl
  have hspawned : l.step ext (.spawnModule name) = { l with
      userModules := some (list ++ [createUserModule ext b.path (BundleType.fromName b.path)])
      tasks := l.tasks ++ [.looking] } := by
    rw [Launcher.step, spawnModule, hfound, hlist]
    rfl
  have hnew : (l.step ext (.spawnModule name)).pushed[list.length]?
      = some (createUserModule ext b.path (BundleType.fromName b.path)) := by
    rw [hspawned]
    exact getElem?_concat_length
  have hstill := getElem?_of_prefix (hafter.pushed_run ext post) hnew
  rw [h.boot] at hown ⊢
  obtain ⟨hbytes, task, htask⟩ := hend.started_of_exactlyOnce honce hstill hown
  refine ⟨hbytes, ?_⟩
  rw [hpushed]
  by_contra hpassed
  -- the place of the new module has been passed, and no launcher task has it
  have hlost : Lost list.length (l.step ext (.spawnModule name)) := by
    rw [hspawned]
    refine ⟨Nat.not_le.mp hpassed, fun other hother => ?_⟩
    obtain ⟨-, old, hold, -⟩ := h.started other _ (startedBy_append_looking.mp hother)
    rw [hpushed, getElem?_eq_none (Nat.le_refl _)] at hold
    cases hold
  exact (hlost.run hafter ext post).free task htask

/-- Once all launcher tasks have run, every module with bytes was started exactly once, if and only
if each was pushed in time and is found under its path. -/
theorem launched_exactly_once (ext : Externs) (boot : List BootModule) (events : List Event)
    (hran : (run (step ext) (init ext boot) events).AllRan) :
    (run (step ext) (init ext boot) events).ExactlyOnce
      ↔ (∀ m ∈ initEntries ext boot, ownBytes boot m ≠ [] → hasBytes boot m = true)
        ∧ EachStep (step ext) (InTime ext) (init ext boot) events := by
  have hend := orderly_run ext boot events
  constructor
  · intro honce
    refine ⟨fun m hm hown => ?_, ?_⟩
    · obtain ⟨index, hindex⟩ := mem_iff_getElem?.mp hm
      have hlater := (orderly_init ext boot).pushed_run ext events
      have hstill := getElem?_of_prefix hlater hindex
      exact (hend.started_of_exactlyOnce honce hstill hown).1
    · rintro pre event post rfl
      cases event with
      | startUserTask task => trivial
      | spawnModule name =>
        rw [run_append, run_cons] at honce
        exact (orderly_run ext boot pre).inTime_spawnModule honce
  · rintro ⟨hinit, htimes⟩ index m hm hown
    have hnone := run_invariant_of_eachStep (P := fun l => Orderly boot l ∧ NoneLost l) htimes
      ⟨orderly_init ext boot, fun index m hm hown =>
        ⟨hinit m (mem_of_getElem? hm) hown, fun h => absurd h (Nat.not_lt_zero _)⟩⟩
      fun l event htime h => ⟨h.1.step ext event, h.2.step h.1 htime⟩
    obtain ⟨hbytes, hdone⟩ := hnone.2 index m hm hown
    obtain ⟨task, htask⟩ := hdone (hend.passed hran hm hbytes)
    exact ⟨task, htask, fun other hother => hend.unique index other task hother htask⟩

def threeModules : List BootModule :=
  [⟨"/boot/demo_app", [1]⟩, ⟨"/boot/empty", []⟩, ⟨"/boot/init", [0x7f, 0x45, 0x4c, 0x46]⟩]

/-- The init module spawns the application, and both launcher tasks run. -/
theorem launched_exactly_once_demoApp :
    (run (step crates) (init crates threeModules)
        [.startUserTask 0, .spawnModule "demo_app", .startUserTask 1]).ExactlyOnce := by
  refine (launched_exactly_once crates threeModules _ (by unfold AllRan; decide +kernel)).mpr
    ⟨by decide +kernel, eachStep_cons.mpr ⟨trivial, eachStep_cons.mpr ⟨?_, ?_⟩⟩⟩
  · intro b hfound _
    have hdemo : ((init crates threeModules).step crates (.startUserTask 0)).found "demo_app"
        = some ⟨"/boot/demo_app", [1]⟩ := by decide +kernel
    cases hdemo.symm.trans hfound
    decide +kernel
  · exact eachStep_cons.mpr ⟨trivial, eachStep_nil _⟩

/-- A launcher task that is spawned for the module without bytes runs past the end of the list, and
the application that is pushed then is not started. -/
theorem module_not_started :
    let l := run (step crates) (init crates threeModules)
      [.startUserTask 0, .spawnModule "empty", .startUserTask 1, .startUserTask 1,
        .spawnModule "demo_app", .startUserTask 2]
    l.AllRan ∧ l.pushed.map (·.name) = ["/boot/init", "/boot/empty", "/boot/demo_app"]
      ∧ l.tasks = [.started 0, .halted, .halted] ∧ ¬ l.ExactlyOnce := by
  intro l
  have htasks : l.tasks = [.started 0, .halted, .halted] := by decide +kernel
  have hpushed : l.pushed.map (·.name) = ["/boot/init", "/boot/empty", "/boot/demo_app"] := by
    decide +kernel
  refine ⟨by unfold AllRan; rw [htasks]; decide, hpushed, htasks, fun honce => ?_⟩
  obtain ⟨task, htask, -⟩ := honce 2 (createUserModule crates "/boot/demo_app" .app)
    (by decide +kernel) (by decide +kernel)
  rw [StartedBy, htasks] at htask
  have hmem := mem_of_getElem? htask
  revert hmem
  decide

end Launcher

end ThingOS
