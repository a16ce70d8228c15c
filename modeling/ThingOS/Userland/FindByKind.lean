import ThingOS.Host.Store
import ThingOS.Kernel.Graph.FindByKind
import ThingOS.Kernel.Syscall

/-!
# The client's query loop

`find_by_kind` of `userland/src/graph.rs` asks its runtime for pages until a page has no next
cursor. Three runtimes can be installed: the host's, the kernel's own, which calls the store
directly, and the one that makes system calls and follows the kernel's cursors in a loop of its own.

Between client and runtime the end is the absence of a cursor; between kernel and its callers it is
the cursor zero. The kernel's own runtime passes the zero on as a cursor. The system-call runtime
translates, but the request that reaches the kernel does not carry the cursor at all.

Everything is run with fuel, and the cursors of the pages asked for are recorded. The graph does not
change during a query.
-/

namespace ThingOS

/-- The answers of a runtime that the loop tells apart: a page, all Things at once, or anything
else. -/
inductive FindResponse where
  | find (things : List GraphThing) (nextCursor : Option ℕ)
  | query (things : List GraphThing)
  | other

/-- What a query has to show for itself: the cursors of the pages asked for, in order, and the
Things returned. -/
structure Query where
  asked : List ℕ
  things : List GraphThing

/-- The loop of `find_by_kind`. `call` takes the pages asked for so far, appends its own, and may
not return. -/
def findByKindLoop (call : List ℕ → Option ℕ → Option (List ℕ × FindResponse)) :
    (fuel : ℕ) → (asked : List ℕ) → (cursor : Option ℕ) → (results : List GraphThing) → Option Query
  | 0, _, _, _ => none
  | fuel + 1, asked, cursor, results =>
    match call asked cursor with
    | none => none
    | some (asked, .find things nextCursor) =>
      if nextCursor.isNone then some ⟨asked, results ++ things⟩
      else findByKindLoop call fuel asked nextCursor (results ++ things)
    | some (asked, .query things) => some ⟨asked, results ++ things⟩
    | some (asked, .other) => some ⟨asked, results⟩

/-! ## The three runtimes -/

/-- `HostRuntime::call`. -/
def hostCall (things : Host.Things) (kind : String) (asked : List ℕ) (cursor : Option ℕ) :
    Option (List ℕ × FindResponse) :=
  let (things, nextCursor) := Host.findByKind things kind cursor
  some (asked ++ [cursor.getD 0], .find things nextCursor)

/-- `KernelDirectRuntime::call`. The next cursor is always there, zero or not. -/
def directCall (store : Store) (kind : String) (asked : List ℕ) (cursor : Option ℕ) :
    Option (List ℕ × FindResponse) :=
  let (things, nextCursor) := store.findByKind kernelBundleId kind (cursor.getD 0)
  some (asked ++ [cursor.getD 0], .find things (some nextCursor))

/-- The size of the buffer that `KernelRuntime` hands to the kernel. -/
def replyBufferSize : ℕ := 64 * 1024

/-- A client of the system call, with the parts of its memory that matter. -/
structure KernelClient (kind : String) where
  /-- The graph the kernel serves. -/
  store : Store
  /-- The bundle of the client. -/
  bundle : BundleId
  /-- Where the copy of the kind stands that is made for a call of the runtime, by the number of
  pages asked for before. -/
  kindPtr : ℕ → ℕ
  /-- The client's memory at each page it asks for, where it is mapped. -/
  peek : ℕ → ℕ → ℕ → Option (List UInt8)
  /-- How many bytes the kernel serialises a page to. -/
  size : List GraphThing → ℕ → ℕ
  /-- A string lies in user memory. -/
  kind_lt : ∀ i, kindPtr i + kind.utf8ByteSize < userLimit

namespace KernelClient

variable {kind : String} (client : KernelClient kind)

/-- The answer to a system call, given how many were made before, where the kind stands and the
cursor. -/
def answer (i kindPtr cursor : ℕ) : FindAnswer :=
  graphFindByKind client.store client.bundle (client.peek i)
    (GraphFindByKind.rawBytes ⟨kindPtr, kind.utf8ByteSize, cursor⟩)

/-- The page that the client finds in its buffer when the kernel had this one to copy out: that page
if it fits, otherwise the one that was there before. What the client reads back is what the kernel
wrote. -/
def received (buf : List GraphThing × ℕ) (things : List GraphThing) (next : ℕ) :
    List GraphThing × ℕ :=
  if client.size things next ≤ replyBufferSize then (things, next) else buf

/-- The loop of `KernelRuntime::call` over system calls. The buffer starts with zeros, which read as
an empty last page. -/
def loop (kindPtr : ℕ) : (fuel : ℕ) → (asked : List ℕ) → (next : ℕ) →
    (buf : List GraphThing × ℕ) → (results : List GraphThing) → Option (List ℕ × FindResponse)
  | 0, _, _, _, _ => none
  | fuel + 1, asked, next, buf, results =>
    match client.answer asked.length kindPtr next with
    | .fault => none
    | .refused => some (asked ++ [next], .find results (if next = 0 then none else some next))
    | .page things nextCursor =>
      let buf := client.received buf things nextCursor
      if buf.2 = 0 then some (asked ++ [next], .find (results ++ buf.1) none)
      else loop kindPtr fuel (asked ++ [next]) buf.2 buf (results ++ buf.1)

/-- `KernelRuntime::call`. -/
def call (fuel : ℕ) (asked : List ℕ) (cursor : Option ℕ) : Option (List ℕ × FindResponse) :=
  client.loop (client.kindPtr asked.length) fuel asked (cursor.getD 0) ([], 0) []

end KernelClient

/-- A runtime installed in the client, with the graph behind it. -/
inductive Runtime (kind : String) where
  | host (things : Host.Things)
  | direct (store : Store)
  | kernel (client : KernelClient kind)

namespace Runtime

variable {kind : String}

def findByKind (fuel : ℕ) : Runtime kind → Option Query
  | host things => findByKindLoop (hostCall things kind) fuel [] none []
  | direct store => findByKindLoop (directCall store kind) fuel [] none []
  | kernel client => findByKindLoop (client.call fuel) fuel [] none []

/-- The loop ends and asks for no page twice. -/
def EndsWithoutRepetition (runtime : Runtime kind) : Prop :=
  ∃ fuel query, runtime.findByKind fuel = some query ∧ query.asked.Nodup

end Runtime

/-! ## The host -/

/-- Over the host the cursors grow up to the number of Things, so the loop ends. -/
lemma findByKindLoop_host (things : Host.Things) (kind : String) (bound : ℕ)
    (hbound : ∀ symbol, Host.symbolFromStr kind = some symbol →
      (Host.ofKind things symbol).length ≤ bound)
    (fuel : ℕ) (asked : List ℕ) (cursor : Option ℕ) (results : List GraphThing)
    (hasked : asked.Nodup) (hbelow : ∀ a ∈ asked, a < cursor.getD 0)
    (hfuel : bound - cursor.getD 0 < fuel) :
    ∃ query, findByKindLoop (hostCall things kind) fuel asked cursor results = some query
      ∧ query.asked.Nodup := by
  induction fuel generalizing asked cursor results with
  | zero => omega
  | succ fuel ih =>
    -- all cursors asked for are below the current one, which is below the bound
    have hnodup : (asked ++ [cursor.getD 0]).Nodup := by
      grind
    rw [findByKindLoop]
    simp only [hostCall]
    cases hnext : (Host.findByKind things kind cursor).2 with
    | none => exact ⟨_, rfl, hnodup⟩
    | some next =>
      obtain ⟨hstep, symbol, hsymbol, hlt⟩ := Host.findByKind_next hnext
      have hle := hbound symbol hsymbol
      have hpage : 0 < Host.findPageSize := by decide
      refine ih _ (some next) _ hnodup ?_ ?_
      · grind
      · simp only [Option.getD_some]
        omega

/-! ## The kernel's own runtime -/

/-- A runtime that always has a next cursor is asked forever. -/
lemma findByKindLoop_direct (store : Store) (kind : String) (fuel : ℕ) (asked : List ℕ)
    (cursor : Option ℕ) (results : List GraphThing) :
    findByKindLoop (directCall store kind) fuel asked cursor results = none := by
  induction fuel generalizing asked cursor results with
  | zero => rfl
  | succ fuel ih =>
    rw [findByKindLoop]
    simp only [directCall, Option.isNone_some, Bool.false_eq_true, if_false]
    exact ih _ _ _

/-! ## The system-call runtime -/

variable {things : List GraphThing} {n : ℕ} {query : Query}

namespace KernelClient

variable {kind : String} (client : KernelClient kind)

/-- The cursor does not reach the kernel. -/
lemma answer_cursor (i j c c' : ℕ) :
    client.answer i (client.kindPtr j) c = client.answer i (client.kindPtr j) c' := by
  have hlt := client.kind_lt j
  have hptr : client.kindPtr j < userLimit := by omega
  have hlen : kind.utf8ByteSize < userLimit := by omega
  have hread := fromBytes_rawBytes_cursor hptr hlen c c'
  simp only [answer, graphFindByKind, hread]

/-- So all next cursors are the same. -/
lemma next_eq {i i' j c c' : ℕ} {things' : List GraphThing} {n' : ℕ}
    (h : client.answer i (client.kindPtr j) c = .page things n)
    (h' : client.answer i' (client.kindPtr j) c' = .page things' n') (hn : n ≠ 0) (hn' : n' ≠ 0) :
    n = n' := by
  rw [client.answer_cursor i' j c' c] at h'
  obtain ⟨request, text, hread, hpage⟩ := graphFindByKind_page h
  obtain ⟨request', text', hread', hpage'⟩ := graphFindByKind_page h'
  obtain rfl : request = request' := Option.some.inj (hread.symm.trans hread')
  have hnext := Store.findByKind_next client.store client.bundle text request.cursor
  have hnext' := Store.findByKind_next client.store client.bundle text' request.cursor
  rw [hpage] at hnext
  rw [hpage'] at hnext'
  exact (hnext.resolve_left hn).trans (hnext'.resolve_left hn').symm

/-- The kernel's answers let the loops end: the first is no page, the last page or too long to be
copied out, or else the second is the last page. -/
def Closes : Prop :=
  match client.answer 0 (client.kindPtr 0) 0 with
  | .fault => False
  | .refused => True
  | .page things next =>
    next = 0 ∨ replyBufferSize < client.size things next
      ∨ ∃ things', client.answer 1 (client.kindPtr 0) 0 = .page things' 0
        ∧ client.size things' 0 ≤ replyBufferSize

section Loop

variable {kindPtr fuel next : ℕ} (asked : List ℕ) {buf : List GraphThing × ℕ}
  {results : List GraphThing}

lemma loop_of_fault (h : client.answer asked.length kindPtr next = .fault) :
    client.loop kindPtr (fuel + 1) asked next buf results = none := by
  rw [loop, h]

lemma loop_of_refused (h : client.answer asked.length kindPtr next = .refused) :
    client.loop kindPtr (fuel + 1) asked next buf results
      = some (asked ++ [next], .find results (if next = 0 then none else some next)) := by
  rw [loop, h]

lemma loop_of_last (h : client.answer asked.length kindPtr next = .page things n)
    (hlast : (client.received buf things n).2 = 0) :
    client.loop kindPtr (fuel + 1) asked next buf results
      = some (asked ++ [next], .find (results ++ (client.received buf things n).1) none) := by
  rw [loop, h]
  exact if_pos hlast

lemma loop_of_more (h : client.answer asked.length kindPtr next = .page things n)
    (hmore : (client.received buf things n).2 ≠ 0) :
    client.loop kindPtr (fuel + 1) asked next buf results
      = client.loop kindPtr fuel (asked ++ [next]) (client.received buf things n).2
        (client.received buf things n) (results ++ (client.received buf things n).1) := by
  rw [loop, h]
  exact if_neg hmore

end Loop

/-- A call of the runtime asks for the page at its cursor first. -/
lemma asked_of_loop {kindPtr fuel : ℕ} {asked asked' : List ℕ} {next : ℕ}
    {buf : List GraphThing × ℕ} {results : List GraphThing} {response : FindResponse}
    (h : client.loop kindPtr fuel asked next buf results = some (asked', response)) :
    asked ++ [next] <+: asked' := by
  induction fuel generalizing asked next buf results with
  | zero => cases h
  | succ fuel ih =>
    cases hanswer : client.answer asked.length kindPtr next with
    | fault =>
      rw [client.loop_of_fault asked hanswer] at h
      cases h
    | refused =>
      rw [client.loop_of_refused asked hanswer] at h
      cases h
      exact List.prefix_rfl
    | page things n =>
      by_cases hlast : (client.received buf things n).2 = 0
      · rw [client.loop_of_last asked hanswer hlast] at h
        cases h
        exact List.prefix_rfl
      · rw [client.loop_of_more asked hanswer hlast] at h
        exact (List.prefix_append _ _).trans (ih h)

/-- A query that ends made its first call, and asked for what that call asked for. -/
lemma call_of_findByKindLoop {callFuel fuel : ℕ} {asked : List ℕ} {cursor : Option ℕ}
    {results : List GraphThing}
    (h : findByKindLoop (client.call callFuel) fuel asked cursor results = some query) :
    ∃ asked' response, client.call callFuel asked cursor = some (asked', response)
      ∧ asked' <+: query.asked := by
  induction fuel generalizing asked cursor results with
  | zero => cases h
  | succ fuel ih =>
    rw [findByKindLoop] at h
    split at h
    · cases h
    · rename_i asked' things nextCursor hcall
      refine ⟨asked', _, hcall, ?_⟩
      split at h
      · cases h
        exact List.prefix_rfl
      · obtain ⟨asked'', _, hcall', hasked⟩ := ih h
        exact (List.prefix_append _ _).trans ((client.asked_of_loop hcall').trans hasked)
    · rename_i asked' things hcall
      cases h
      exact ⟨asked', _, hcall, List.prefix_rfl⟩
    · rename_i asked' hcall
      cases h
      exact ⟨asked', _, hcall, List.prefix_rfl⟩

/-- The first round of a call whose first page is copied out and has a successor. -/
lemma call_of_first (fuel : ℕ) (h : client.answer 0 (client.kindPtr 0) 0 = .page things n)
    (hfits : client.size things n ≤ replyBufferSize) (hn : n ≠ 0) :
    client.call (fuel + 1) [] none
      = client.loop (client.kindPtr 0) fuel [0] n (things, n) things := by
  have hreceived : client.received ([], 0) things n = (things, n) := if_pos hfits
  calc client.call (fuel + 1) [] none
    _ = client.loop (client.kindPtr 0) (fuel + 1) [] 0 ([], 0) [] := rfl
    _ = client.loop (client.kindPtr 0) fuel [0] n (things, n) things := by
      rw [client.loop_of_more [] h (by rw [hreceived]; exact hn), hreceived]
      rfl

/-- When the kernel's answers close, two system calls are enough. -/
lemma ends_of_closes (h : client.Closes) :
    ∃ query, (Runtime.kernel client).findByKind 2 = some query ∧ query.asked.Nodup := by
  have hfirst : ∀ asked things, client.call 2 [] none = some (asked, .find things none) →
      asked.Nodup → ∃ query, (Runtime.kernel client).findByKind 2 = some query
        ∧ query.asked.Nodup :=
    fun _ _ hcall hnodup => ⟨_, by
      rw [Runtime.findByKind, findByKindLoop]
      rw [hcall]
      rfl, hnodup⟩
  unfold Closes at h
  cases hanswer : client.answer 0 (client.kindPtr 0) 0 with
  | fault =>
    rw [hanswer] at h
    exact absurd h id
  | refused => exact hfirst [0] _ (client.loop_of_refused [] hanswer) (by simp)
  | page things next =>
    simp only [hanswer] at h
    by_cases hlast : (client.received ([], 0) things next).2 = 0
    · exact hfirst [0] _ (client.loop_of_last [] hanswer hlast) (by simp)
    · -- the page fits and is not the last, so the second one is
      obtain ⟨hfits, hnext⟩ : client.size things next ≤ replyBufferSize ∧ next ≠ 0 := by
        unfold received at hlast
        split at hlast
        · exact ⟨‹_›, hlast⟩
        · exact absurd rfl hlast
      obtain ⟨things', hanswer', hfits'⟩ :=
        (h.resolve_left hnext).resolve_left (Nat.not_lt.mpr hfits)
      rw [client.answer_cursor 1 0 0 next] at hanswer'
      have hreceived' : client.received (things, next) things' 0 = (things', 0) := if_pos hfits'
      refine hfirst [0, next] (things ++ things') ?_ (by simpa using hnext.symm)
      rw [client.call_of_first 1 hanswer hfits hnext,
        client.loop_of_last [0] hanswer' (by rw [hreceived']), hreceived']
      rfl

/-- A second page that does not close the query leaves the cursor where it is: it has the same next
cursor, or is not copied out. -/
lemma received_next {j : ℕ} {things' : List GraphThing} {n' : ℕ}
    (h : client.answer 0 (client.kindPtr j) 0 = .page things n)
    (h' : client.answer 1 (client.kindPtr j) n = .page things' n') (hn : n ≠ 0)
    (hopen : ¬ (n' = 0 ∧ client.size things' n' ≤ replyBufferSize)) :
    (client.received (things, n) things' n').2 = n := by
  unfold received
  split
  · rename_i hfits
    exact (client.next_eq h h' hn fun hzero => hopen ⟨hzero, hfits⟩).symm
  · rfl

/-- If the first page has a successor and the second does not close the query, a query that ends
asked for the second page twice. -/
lemma asked_of_open {fuel : ℕ} (hanswer : client.answer 0 (client.kindPtr 0) 0 = .page things n)
    (hfits : client.size things n ≤ replyBufferSize) (hn : n ≠ 0)
    (hopen : ∀ things', client.answer 1 (client.kindPtr 0) 0 = .page things' 0 →
      ¬ client.size things' 0 ≤ replyBufferSize)
    (h : (Runtime.kernel client).findByKind (fuel + 1) = some query) :
    [0, n, n] <+: query.asked := by
  obtain ⟨asked, response, hcall, hasked⟩ := client.call_of_findByKindLoop h
  have hround := client.call_of_first fuel hanswer hfits hn
  rw [hround] at hcall
  cases fuel with
  | zero => cases hcall
  | succ fuel =>
    cases hanswer' : client.answer 1 (client.kindPtr 0) n with
    | fault =>
      rw [client.loop_of_fault [0] hanswer'] at hcall
      cases hcall
    | refused =>
      -- the error ends the call with a cursor, so the client's loop asks for the same page
      rw [client.loop_of_refused [0] hanswer', if_neg hn] at hround
      simp only [Runtime.findByKind] at h
      rw [findByKindLoop, hround] at h
      obtain ⟨asked', _, hcall', hasked'⟩ := client.call_of_findByKindLoop h
      exact (client.asked_of_loop hcall').trans hasked'
    | page things' n' =>
      have hnext : (client.received (things, n) things' n').2 = n := by
        grind [client.received_next, client.answer_cursor]
      rw [client.loop_of_more [0] hanswer' (by rw [hnext]; exact hn), hnext] at hcall
      exact (client.asked_of_loop hcall).trans hasked

/-- So a query that ends without repetition was closed by the kernel's answers. -/
lemma closes_of_ends {fuel : ℕ}
    (h : (Runtime.kernel client).findByKind fuel = some query) (hnodup : query.asked.Nodup) :
    client.Closes := by
  cases fuel with
  | zero => cases h
  | succ fuel =>
    unfold Closes
    cases hanswer : client.answer 0 (client.kindPtr 0) 0 with
    | fault =>
      obtain ⟨asked, response, hcall, -⟩ := client.call_of_findByKindLoop h
      have hnone : client.call (fuel + 1) [] none = none := client.loop_of_fault [] hanswer
      rw [hnone] at hcall
      cases hcall
    | refused => trivial
    | page things n =>
      by_contra hopen
      simp only [not_or, not_lt, not_exists, not_and] at hopen
      obtain ⟨hn, hfits, hsecond⟩ := hopen
      have hasked := client.asked_of_open hanswer hfits hn hsecond h
      simpa using hnodup.sublist hasked.sublist

end KernelClient

namespace Runtime

variable {kind : String}

/-- The runtimes under which the client's loop works: the host's always, the kernel's own never, the
system-call runtime as long as the kernel's answers close. -/
def Closes : Runtime kind → Prop
  | host _ => True
  | direct _ => False
  | kernel client => client.Closes

/-- For every graph, kind and runtime, the query ends and asks for no page twice exactly if the
runtime closes. -/
theorem client_query_termination (kind : String) (runtime : Runtime kind) :
    runtime.EndsWithoutRepetition ↔ runtime.Closes := by
  cases runtime with
  | host things =>
    refine iff_of_true ?_ trivial
    let bound :=
      ((Host.symbolFromStr kind).map fun symbol => (Host.ofKind things symbol).length).getD 0
    obtain ⟨query, hquery⟩ := findByKindLoop_host things kind bound
      (fun symbol hsymbol => by simp [bound, hsymbol]) (bound + 1) [] none [] List.nodup_nil
      (by simp) (by simp)
    exact ⟨bound + 1, query, hquery⟩
  | direct store =>
    refine iff_of_false ?_ id
    rintro ⟨fuel, query, h, -⟩
    simp [findByKind, findByKindLoop_direct] at h
  | kernel client =>
    refine ⟨?_, fun h => ⟨2, client.ends_of_closes h⟩⟩
    rintro ⟨fuel, query, h, hnodup⟩
    exact client.closes_of_ends h hnodup

/-- A client at three Things of a kind. The kernel reads the words of its record as numbers of
variable length, and where the string stands these are another address, the length five and the
cursor zero; five bytes of the client's memory read `style`, wherever they are. -/
def styleClient : KernelClient "style" where
  store := (GraphState.reach crates (GraphState.hiddenFirstRun 2)).store
  bundle := kernelBundleId
  kindPtr _ := 0x505818080
  peek _ _ len := some ("style".toUTF8.data.toList.take len)
  size things _ := 64 * things.length
  kind_lt _ := by decide

theorem client_query_termination_style :
    (∃ things, styleClient.answer 0 (styleClient.kindPtr 0) 0 = .page things 0 ∧ things.length = 3)
      ∧ (kernel styleClient).EndsWithoutRepetition := by
  have hpage : (match styleClient.answer 0 (styleClient.kindPtr 0) 0 with
      | .page things next => decide (things.length = 3 ∧ next = 0)
      | _ => false) = true := by
    decide +kernel
  split at hpage
  case h_1 things next hanswer =>
    obtain ⟨hlength, rfl⟩ := of_decide_eq_true hpage
    refine ⟨⟨things, hanswer, hlength⟩, (client_query_termination "style" _).mpr ?_⟩
    rw [Closes, KernelClient.Closes, hanswer]
    exact .inl rfl
  case h_2 => cases hpage

/-- Over the kernel's own runtime not even a query of the empty graph ends. -/
theorem direct_query_never_ends : ¬ (direct Store.new : Runtime "style").EndsWithoutRepetition := by
  rintro ⟨fuel, query, h, -⟩
  simp [findByKind, findByKindLoop_direct] at h

end Runtime

end ThingOS
