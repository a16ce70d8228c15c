import ThingOS.Kernel.Syscall
import ThingOS.Kernel.Task.Launcher

/-!
# Spawning a module by its name

The `spawn` call of `kernel/src/arch/x86_64/syscall.rs` reads a name from the memory of the caller
and hands it to `spawn_module`. That takes the first module, in the order of the paths, whose path
contains the name anywhere. Callers pass the file name of a module; the bootloader lists paths.
-/

namespace ThingOS

open List

def fileName (path : String) : String :=
  String.ofList (path.toList.reverse.takeWhile (· != '/')).reverse

/-- What `spawn` makes of its arguments: it reads memory that is not mapped, it turns them away, or
it has a name. -/
inductive NameRead where
  | fault
  | refused
  | name (name : String)
deriving DecidableEq

/-- `peek` is the user memory, where that is mapped. -/
def readName (peek : ℕ → ℕ → Option (List UInt8)) (ptr len : ℕ) : NameRead :=
  if 128 < len then .refused
  else if !validUserSlice ptr len then .refused
  else
    match if len = 0 then some [] else peek ptr len with
    | none => .fault
    | some slice =>
      match String.fromUTF8? ⟨slice.toArray⟩ with
      | none => .refused
      | some name => .name name

namespace Launcher

/-- The call of a process: the result register and the launcher after. A page fault has no
result. -/
def spawn (ext : Externs) (l : Launcher) (peek : ℕ → ℕ → Option (List UInt8)) (ptr len : ℕ) :
    Option (ℕ × Launcher) :=
  match readName peek ptr len with
  | .fault => none
  | .refused => some (u64Size - 1, l)
  | .name name =>
    let (spawned, l) := l.spawnModule ext name
    some (if spawned then 0 else u64Size - 1, l)

/-- The path or the file name of a module contains nothing that the path does not. -/
lemma containsStr_naming {naming : String → String} (hnaming : naming = id ∨ naming = fileName)
    (path : String) : containsStr path (naming path) = true := by
  refine decide_eq_true ?_
  rcases hnaming with rfl | rfl
  · exact infix_rfl
  · have hsuffix := reverse_suffix.mpr ( takeWhile_prefix (l := path.toList.reverse)
      (· != '/'))
    rw [reverse_reverse] at hsuffix
    rw [fileName, String.toList_ofList]
    exact hsuffix.isInfix

/-- The call answers with zero exactly if there is a module of that name, and what is pushed then is
a module of that name. -/
def SpawnsByName (ext : Externs) (l : Launcher) (peek : ℕ → ℕ → Option (List UInt8)) (ptr len : ℕ)
    (naming : String → String) (name : String) : Prop :=
  ((∃ l', l.spawn ext peek ptr len = some (0, l')) ↔ ∃ m ∈ l.modules, naming m.path = name)
    ∧ ∀ l', l.spawn ext peek ptr len = some (0, l') →
      ∃ m ∈ l.modules, naming m.path = name
        ∧ l'.pushed = l.pushed ++ [createUserModule ext m.path (BundleType.fromName m.path)]

lemma spawn_eq (ext : Externs) {l : Launcher} {peek : ℕ → ℕ → Option (List UInt8)} {ptr len : ℕ}
    {name : String} {list : List UserModule} (hlist : l.userModules = some list)
    (hread : readName peek ptr len = .name name) :
    (l.modules.find? (fun m => containsStr m.path name) = none
        ∧ l.spawn ext peek ptr len = some (u64Size - 1, l))
      ∨ ∃ m l', l.modules.find? (fun m => containsStr m.path name) = some m
        ∧ l.spawn ext peek ptr len = some (0, l')
        ∧ l'.pushed = l.pushed ++ [createUserModule ext m.path (BundleType.fromName m.path)] := by
  have hfound : l.found name = l.modules.find? fun m => containsStr m.path name := by
    rw [found, hlist]
  cases hfind : l.modules.find? (fun m => containsStr m.path name) with
  | none => exact .inl ⟨rfl, by simp [spawn, hread, spawnModule, hfound, hfind]⟩
  | some m =>
    refine .inr ⟨m, _, rfl, by simp only [spawn, hread, spawnModule, hfound, hfind]; rfl, ?_⟩
    simp [pushed, hlist]

/-- In every state of the launcher, a name that the call accepts is treated as the name of a module
exactly if the first module whose path contains it has that name. -/
theorem spawn_by_name_iff (ext : Externs) (boot : List BootModule) (events : List Event)
    (peek : ℕ → ℕ → Option (List UInt8)) (ptr len : ℕ) (name : String)
    (hread : readName peek ptr len = .name name) (naming : String → String)
    (hnaming : naming = id ∨ naming = fileName) :
    (run (step ext) (init ext boot) events).SpawnsByName ext peek ptr len naming name
      ↔ ∀ pre m post, boot = pre ++ m :: post → containsStr m.path name = true →
        (∀ earlier ∈ pre, containsStr earlier.path name = false) → naming m.path = name := by
  have horderly := orderly_run ext boot events
  obtain ⟨list, hlist⟩ := horderly.exists_list
  have hboot := horderly.boot
  generalize run (step ext) (init ext boot) events = l at horderly hlist hboot ⊢
  subst hboot
  rcases spawn_eq ext hlist hread with ⟨hnone, hspawn⟩ | ⟨m, l', hsome, hspawn, hpushed⟩
  · -- nothing contains the name, so nothing is called that
    have habsent := find?_eq_none.mp hnone
    refine iff_of_true ⟨iff_of_false ?_ ?_, ?_⟩ ?_
    · rintro ⟨l', hl'⟩
      rw [hspawn] at hl'
      cases hl'
    · rintro ⟨m, hm, rfl⟩
      exact habsent m hm (containsStr_naming hnaming m.path)
    · intro l' hl'
      rw [hspawn] at hl'
      cases hl'
    · rintro pre m post heq hm -
      exact absurd hm (habsent m (by simp [heq]))
  · obtain ⟨hm, pre, post, hsplit, hearlier⟩ := find?_eq_some_iff_append.mp hsome
    constructor
    · rintro ⟨-, hthen⟩
      obtain ⟨m', -, hname, hpushed'⟩ := hthen l' hspawn
      have hentry : createUserModule ext m'.path (BundleType.fromName m'.path)
          = createUserModule ext m.path (BundleType.fromName m.path) := by
        rw [hpushed'] at hpushed
        exact singleton_inj.mp (append_cancel_left hpushed)
      have hpath : m'.path = m.path := congrArg UserModule.name hentry
      have hfirst : naming m.path = name := hpath ▸ hname
      intro pre' n post' heq hn hnone
      have hfind : l.modules.find? (fun m => containsStr m.path name) = some n :=
        find?_eq_some_iff_append.mpr ⟨hn, pre', post', heq, fun a ha => by simp [hnone a ha]⟩
      rw [hsome] at hfind
      cases hfind
      exact hfirst
    · intro hfirst
      have hname := hfirst pre m post hsplit hm fun a ha => by simpa using hearlier a ha
      have hmem : m ∈ l.modules := by simp [hsplit]
      refine ⟨iff_of_true ⟨l', hspawn⟩ ⟨m, hmem, hname⟩, fun l'' hl'' => ?_⟩
      rw [hspawn] at hl''
      cases hl''
      exact ⟨m, hmem, hname, hpushed⟩

def textAt (address : ℕ) (text : String) : ℕ → ℕ → Option (List UInt8) := fun ptr len =>
  if ptr = address then some (text.toUTF8.data.toList.take len) else none

/-- A process asks for the application by its file name. -/
theorem spawn_by_name_demoApp :
    (init crates threeModules).SpawnsByName crates (textAt 0x1000 "demo_app") 0x1000 8 fileName
      "demo_app" := by
  refine (spawn_by_name_iff crates threeModules [] _ _ _ "demo_app" (by decide +kernel) fileName
    (.inr rfl)).mpr ?_
  intro pre m post heq hm hnone
  have hfind : threeModules.find? (fun m => containsStr m.path "demo_app") = some m :=
    find?_eq_some_iff_append.mpr ⟨hm, pre, post, heq, fun a ha => by simp [hnone a ha]⟩
  have hdemo : threeModules.find? (fun m => containsStr m.path "demo_app")
      = some ⟨"/boot/demo_app", [1]⟩ := by decide +kernel
  cases hdemo.symm.trans hfind
  decide +kernel

/-- No module is called `demo`, and yet the call starts the application. -/
theorem spawned_another :
    (∀ naming : String → String, naming = id ∨ naming = fileName →
        ∀ m ∈ threeModules, naming m.path ≠ "demo")
      ∧ ((init crates threeModules).spawn crates (textAt 0x1000 "demo") 0x1000 4).map
        (fun r => (r.1, r.2.pushed.map (·.name))) = some (0, ["/boot/init", "/boot/demo_app"]) := by
  refine ⟨?_, by decide +kernel⟩
  rintro naming (rfl | rfl) <;> decide +kernel

end Launcher

end ThingOS
