import Delorean.Chain.Proposal

/-!
# The resolution pool and its queue of tasks

`fendermint_vm_resolver::pool`. A `ResolvePool` has two fields: the statuses by key (`items`,
modelled by `ResolvePool` in `Delorean.Chain.Proposal`) and the queue of `ResolveTask`s that the
background resolver reads with `next`. `add` files an item under its key; only for a key it has
not seen does it create the status, write the map and queue a task. A task shares the `TVar`s of
the status it was queued with, and a status stays filed under its key once it is created, so
setting the task resolved resolves the status filed under the task's key.

`Resolution` is the pool together with the tasks the resolver has taken from the queue, and
`Resolution.run` a sequence of `add`, `next` and `set_resolved` calls, the last only of a task
that `next` has handed out. Over every run the pool keeps a record of the calls made (`Tracks`):
the tasks queued so far, taken or not, are of distinct keys, the keys of the items added; the
status of a key holds exactly the items added with that key and the OR of their flags, and it is
resolved exactly when a task of that key has been set resolved. `add`, `next` and `set_resolved`
each keep the record (`Tracks.add`, `Tracks.next`, `Tracks.setResolved`), and a run keeps it by
induction on the calls.
-/

namespace Delorean.Chain

/-- `ResolveTask`: the key of the content to resolve. Its `is_resolved` and `use_own_subnet` are
the `TVar`s of the status filed under the key. -/
structure ResolveTask (Key : Type) where
  key : Key
  deriving DecidableEq, Repr

namespace ResolvePool

variable {Key T : Type} [DecidableEq Key] {key : T → Key}

/-! ## What `add` and `set_resolved` file -/

section Filing

variable (pool : ResolvePool Key T key)

theorem mem_setResolved (k k' : Key) : k ∈ (pool.setResolved k').items ↔ k ∈ pool.items := by
  unfold setResolved
  split
  · rename_i status h
    rw [AList.mem_insert]
    constructor
    · rintro (rfl | hk)
      · exact AList.lookup_isSome.1 (by simp [h])
      · exact hk
    · exact Or.inr
  · rfl

/-- Setting a key resolved resolves the status filed under it, and only that one. -/
theorem lookup_setResolved (k k' : Key) :
    (pool.setResolved k').items.lookup k =
      if k = k' then (pool.items.lookup k).map fun status => { status with is_resolved := true }
      else pool.items.lookup k := by
  unfold setResolved
  split
  · rename_i status h
    by_cases hk : k = k'
    · subst hk
      simp [h]
    · simp [hk, AList.lookup_insert_ne hk]
  · rename_i h
    by_cases hk : k = k'
    · subst hk
      simp [h]
    · simp [hk]

variable [DecidableEq T]

theorem mem_add (item : T) (use_own_subnet : Bool) (k : Key) :
    k ∈ (pool.add item use_own_subnet).items ↔ k = key item ∨ k ∈ pool.items := by
  unfold add
  split <;> exact AList.mem_insert _

theorem lookup_add_of_ne (item : T) (use_own_subnet : Bool) {k : Key} (hk : k ≠ key item) :
    (pool.add item use_own_subnet).items.lookup k = pool.items.lookup k := by
  unfold add
  split <;> exact AList.lookup_insert_ne hk

/-- `add` of an item whose key has a status: the item joins it and its flag is OR-ed in. -/
theorem lookup_add_of_lookup (item : T) (use_own_subnet : Bool) {status : ResolveStatus T}
    (h : pool.items.lookup (key item) = some status) :
    (pool.add item use_own_subnet).items.lookup (key item) =
      some { status with use_own_subnet := status.use_own_subnet || use_own_subnet
                         items := status.items.insert item } := by
  unfold add
  split
  · rename_i status' h'
    rw [h] at h'
    cases h'
    exact AList.lookup_insert _
  · rename_i h'
    rw [h] at h'
    cases h'

/-- `add` of an item of a new key: a new unresolved status with the item and its flag. -/
theorem lookup_add_of_lookup_eq_none (item : T) (use_own_subnet : Bool)
    (h : pool.items.lookup (key item) = none) :
    (pool.add item use_own_subnet).items.lookup (key item) = some ⟨false, use_own_subnet, [item]⟩ := by
  unfold add
  split
  · rename_i status' h'
    rw [h] at h'
    cases h'
  · exact AList.lookup_insert _

end Filing

/-- `collect_resolved` returns the items of the resolved statuses: an item is collected exactly
when the status filed under its key is resolved and holds it. -/
theorem mem_collectResolved (pool : ResolvePool Key T key) (t : T) :
    t ∈ pool.collectResolved ↔
      ∃ status, pool.getStatus t = some status ∧ status.is_resolved = true ∧ t ∈ status.items := by
  constructor
  · intro h
    obtain ⟨⟨k, status⟩, he, ht⟩ := List.mem_flatMap.1 h
    have hlookup : pool.items.lookup k = some status := AList.mem_lookup_iff.2 he
    by_cases hres : status.is_resolved = true
    · rw [if_pos hres] at ht
      -- The item is filed under its own key.
      have hkey : key t = k := pool.keyed k status hlookup t ht
      exact ⟨status, by rw [getStatus, hkey, hlookup], hres, ht⟩
    · rw [if_neg hres] at ht
      cases ht
  · rintro ⟨status, hstatus, hres, ht⟩
    refine List.mem_flatMap.2 ⟨⟨key t, status⟩, AList.mem_lookup_iff.1 hstatus, ?_⟩
    rw [if_pos hres]
    exact ht

end ResolvePool

/-! ## The pool with its queue -/

/-- `ResolvePool` with both of its fields: the statuses and the queue of tasks, oldest first. -/
structure QueuedPool (Key T : Type) [DecidableEq Key] (key : T → Key) where
  items : ResolvePool Key T key
  queue : List (ResolveTask Key)

namespace QueuedPool

variable {Key T : Type} [DecidableEq Key] {key : T → Key}

/-- `ResolvePool::new`. -/
def new : QueuedPool Key T key := ⟨.new, []⟩

/-- `next`: the oldest task of the queue. While the queue is empty the transaction retries, here
`none`. -/
def next (self : QueuedPool Key T key) : Option (ResolveTask Key × QueuedPool Key T key) :=
  match self.queue with
  | [] => none
  | task :: queue => some (task, { self with queue })

/-- `ResolveTask::set_resolved`: the task's `is_resolved` is that of the status filed under its
key. -/
def setResolved (self : QueuedPool Key T key) (task : ResolveTask Key) : QueuedPool Key T key :=
  { self with items := self.items.setResolved task.key }

variable [DecidableEq T]

/-- `add`: a key with a status only gets the item and the flag; a new key gets a new status, and a
task queued for it. -/
def add (self : QueuedPool Key T key) (item : T) (use_own_subnet : Bool) : QueuedPool Key T key :=
  if key item ∈ self.items.items then { self with items := self.items.add item use_own_subnet }
  else ⟨self.items.add item use_own_subnet, self.queue ++ [⟨key item⟩]⟩

end QueuedPool

/-- The calls on the pool: `add`, the resolver's `next`, and `set_resolved` of a task. -/
inductive PoolCall (Key T : Type) where
  | add (item : T) (use_own_subnet : Bool)
  | next
  | setResolved (task : ResolveTask Key)
  deriving DecidableEq, Repr

namespace PoolCall

variable {Key T : Type}

/-- The flag a call passes for the key `k`: an `add` of an item of that key passes its own. -/
def flagFor (key : T → Key) [DecidableEq Key] (k : Key) : PoolCall Key T → Bool
  | add t use_own_subnet => decide (key t = k) && use_own_subnet
  | _ => false

end PoolCall

/-- The OR of the flags the calls passed for the key `k`. -/
def flagsFor {Key T : Type} [DecidableEq Key] (key : T → Key) (calls : List (PoolCall Key T))
    (k : Key) : Bool :=
  calls.any (PoolCall.flagFor key k)

/-- The pool and the tasks the resolver has taken from its queue, oldest first. -/
structure Resolution (Key T : Type) [DecidableEq Key] (key : T → Key) where
  pool : QueuedPool Key T key
  taken : List (ResolveTask Key)

namespace Resolution

variable {Key T : Type} [DecidableEq Key] {key : T → Key}

/-- A new pool, and no task taken. -/
def initial : Resolution Key T key := ⟨.new, []⟩

variable [DecidableEq T]

/-- One call; `none` when it cannot happen: `next` waits for a task, and only a task the resolver
has taken can be set resolved. -/
def step (s : Resolution Key T key) : PoolCall Key T → Option (Resolution Key T key)
  | .add item use_own_subnet => some { s with pool := s.pool.add item use_own_subnet }
  | .next => s.pool.next.map fun next => ⟨next.2, s.taken ++ [next.1]⟩
  | .setResolved task => if task ∈ s.taken then some { s with pool := s.pool.setResolved task } else none

/-- The calls, one after another, from a new pool. -/
def run (calls : List (PoolCall Key T)) : Option (Resolution Key T key) :=
  calls.foldlM step initial

/-- What the pool records of the calls made so far. -/
structure Tracks (calls : List (PoolCall Key T)) (s : Resolution Key T key) : Prop where
  /-- The tasks queued so far, taken or not, are of distinct keys. -/
  nodup : ((s.taken ++ s.pool.queue).map ResolveTask.key).Nodup
  /-- The keys queued are the keys filed. -/
  queued : ∀ k, k ∈ (s.taken ++ s.pool.queue).map ResolveTask.key ↔ k ∈ s.pool.items.items
  /-- The keys filed are those of the items added. -/
  filed : ∀ k, k ∈ s.pool.items.items ↔ ∃ t f, PoolCall.add t f ∈ calls ∧ key t = k
  /-- A key's status holds the items added with the key. -/
  items : ∀ k status, s.pool.items.items.lookup k = some status →
    ∀ t, t ∈ status.items ↔ (∃ f, PoolCall.add t f ∈ calls) ∧ key t = k
  /-- A key's status has the OR of the flags passed with the key. -/
  flag : ∀ k status, s.pool.items.items.lookup k = some status →
    status.use_own_subnet = flagsFor key calls k
  /-- A key's status is resolved once a task of the key has been set resolved. -/
  resolved : ∀ k status, s.pool.items.items.lookup k = some status →
    (status.is_resolved = true ↔ ∃ task, PoolCall.setResolved task ∈ calls ∧ task.key = k)
  /-- The tasks set resolved were taken. -/
  taken_of_resolved : ∀ task, PoolCall.setResolved task ∈ calls → task ∈ s.taken

/-! ## Each call keeps the record -/

section Tracks

variable {calls : List (PoolCall Key T)} {s : Resolution Key T key}

omit [DecidableEq T] in
@[simp]
theorem flagsFor_append_singleton (c : PoolCall Key T) (k : Key) :
    flagsFor key (calls ++ [c]) k = (flagsFor key calls k || c.flagFor key k) := by
  simp [flagsFor]

omit [DecidableEq T] in
/-- A key was passed a flag only by an `add` of an item of the key. -/
theorem exists_add_of_flagsFor {k : Key} (h : flagsFor key calls k = true) :
    ∃ t f, PoolCall.add t f ∈ calls ∧ key t = k := by
  obtain ⟨c, hc, hflag⟩ := List.any_eq_true.1 h
  cases c with
  | add t f =>
    simp only [PoolCall.flagFor, Bool.and_eq_true, decide_eq_true_eq] at hflag
    exact ⟨t, f, hc, hflag.1⟩
  | next => cases hflag
  | setResolved _ => cases hflag

omit [DecidableEq T] in
theorem tracks_initial : Tracks ([] : List (PoolCall Key T)) (initial : Resolution Key T key) where
  nodup := List.nodup_nil
  queued k := by simp [initial, QueuedPool.new, ResolvePool.new, AList.notMem_empty]
  filed k := by simp [initial, QueuedPool.new, ResolvePool.new, AList.notMem_empty]
  items k status h := by simp [initial, QueuedPool.new, ResolvePool.new] at h
  flag k status h := by simp [initial, QueuedPool.new, ResolvePool.new] at h
  resolved k status h := by simp [initial, QueuedPool.new, ResolvePool.new] at h
  taken_of_resolved task h := by simp at h

/-- The keys filed after `add`, whether or not the item's key is new: those of the items added. -/
theorem Tracks.filed_add (hs : Tracks calls s) (item : T) (use_own_subnet : Bool) (k : Key) :
    k ∈ (s.pool.items.add item use_own_subnet).items ↔
      ∃ t f, PoolCall.add t f ∈ calls ++ [.add item use_own_subnet] ∧ key t = k := by
  rw [ResolvePool.mem_add, hs.filed]
  simp only [List.mem_append, List.mem_singleton, PoolCall.add.injEq]
  constructor
  · rintro (rfl | ⟨t, f, ht, rfl⟩)
    · exact ⟨item, use_own_subnet, Or.inr ⟨rfl, rfl⟩, rfl⟩
    · exact ⟨t, f, Or.inl ht, rfl⟩
  · rintro ⟨t, f, ht | ⟨rfl, rfl⟩, rfl⟩
    · exact Or.inr ⟨t, f, ht, rfl⟩
    · exact Or.inl rfl

/-- `add` leaves the statuses of the other keys, and what the record says of them. -/
theorem Tracks.add_of_ne (hs : Tracks calls s) (item : T) (use_own_subnet : Bool) {k : Key}
    (hk : k ≠ key item) {status : ResolveStatus T}
    (h : (s.pool.items.add item use_own_subnet).items.lookup k = some status) :
    (∀ t, t ∈ status.items ↔
        (∃ f, PoolCall.add t f ∈ calls ++ [.add item use_own_subnet]) ∧ key t = k) ∧
      status.use_own_subnet = flagsFor key (calls ++ [.add item use_own_subnet]) k ∧
      (status.is_resolved = true ↔
        ∃ task, PoolCall.setResolved task ∈ calls ++ [.add item use_own_subnet] ∧ task.key = k) := by
  rw [s.pool.items.lookup_add_of_ne item use_own_subnet hk] at h
  refine ⟨fun t => ?_, ?_, ?_⟩
  · simp only [List.mem_append, List.mem_singleton, PoolCall.add.injEq]
    rw [hs.items k status h t]
    constructor
    · rintro ⟨⟨f, hf⟩, hkey⟩
      exact ⟨⟨f, Or.inl hf⟩, hkey⟩
    · rintro ⟨⟨f, hf | ⟨rfl, rfl⟩⟩, hkey⟩
      · exact ⟨⟨f, hf⟩, hkey⟩
      · exact absurd hkey.symm hk
  · rw [flagsFor_append_singleton]
    simp [PoolCall.flagFor, hs.flag k status h, Ne.symm hk]
  · have hnew : ∀ task, PoolCall.setResolved task ∈ calls ++ [.add item use_own_subnet] ↔
        PoolCall.setResolved task ∈ calls := by simp
    simp only [hnew]
    exact hs.resolved k status h

/-- `add` of an item whose key has a status: the queue stays, the status takes the item. -/
theorem Tracks.add_of_mem (hs : Tracks calls s) (item : T) (use_own_subnet : Bool)
    (hmem : key item ∈ s.pool.items.items) :
    Tracks (calls ++ [.add item use_own_subnet])
      { s with pool := { s.pool with items := s.pool.items.add item use_own_subnet } } := by
  obtain ⟨status, hstatus⟩ := Option.isSome_iff_exists.1 (AList.lookup_isSome.2 hmem)
  have hlookup := s.pool.items.lookup_add_of_lookup item use_own_subnet hstatus
  refine ⟨hs.nodup, fun k => ?_, hs.filed_add item use_own_subnet, fun k status' h t => ?_,
    fun k status' h => ?_, fun k status' h => ?_, fun task h => ?_⟩
  · rw [hs.queued, ResolvePool.mem_add]
    constructor
    · exact Or.inr
    · rintro (rfl | hk)
      · exact hmem
      · exact hk
  -- at the item's key the status is the old one with the item; the other keys keep theirs
  · by_cases hk : k = key item
    · subst hk
      rw [hlookup, Option.some.injEq] at h
      subst h
      simp only [List.mem_append, List.mem_singleton, PoolCall.add.injEq]
      rw [List.mem_insert_iff, hs.items _ status hstatus t]
      constructor
      · rintro (rfl | ⟨⟨f, hf⟩, hkey⟩)
        · exact ⟨⟨use_own_subnet, Or.inr ⟨rfl, rfl⟩⟩, rfl⟩
        · exact ⟨⟨f, Or.inl hf⟩, hkey⟩
      · rintro ⟨⟨f, hf | ⟨rfl, rfl⟩⟩, hkey⟩
        · exact Or.inr ⟨⟨f, hf⟩, hkey⟩
        · exact Or.inl rfl
    · exact (hs.add_of_ne item use_own_subnet hk h).1 t
  · by_cases hk : k = key item
    · subst hk
      rw [hlookup, Option.some.injEq] at h
      subst h
      simp [PoolCall.flagFor, hs.flag _ status hstatus]
    · exact (hs.add_of_ne item use_own_subnet hk h).2.1
  · by_cases hk : k = key item
    · subst hk
      rw [hlookup, Option.some.injEq] at h
      subst h
      simpa using hs.resolved _ status hstatus
    · exact (hs.add_of_ne item use_own_subnet hk h).2.2
  · exact hs.taken_of_resolved task (by simpa using h)

/-- `add` of an item of a new key: a task for the key is queued, and a status filed for it. -/
theorem Tracks.add_of_not_mem (hs : Tracks calls s) (item : T) (use_own_subnet : Bool)
    (hmem : key item ∉ s.pool.items.items) :
    Tracks (calls ++ [.add item use_own_subnet])
      { s with pool := ⟨s.pool.items.add item use_own_subnet, s.pool.queue ++ [⟨key item⟩]⟩ } := by
  have hnone : s.pool.items.items.lookup (key item) = none := AList.lookup_eq_none.2 hmem
  have hlookup := s.pool.items.lookup_add_of_lookup_eq_none item use_own_subnet hnone
  -- No call so far was about the new key.
  have hfresh : ∀ t f, PoolCall.add t f ∈ calls → key t ≠ key item :=
    fun t f ht hkey => hmem ((hs.filed _).2 ⟨t, f, ht, hkey⟩)
  refine ⟨?_, fun k => ?_, hs.filed_add item use_own_subnet, fun k status' h t => ?_,
    fun k status' h => ?_, fun k status' h => ?_, fun task h => ?_⟩
  · rw [← List.append_assoc, List.map_append, List.nodup_append]
    refine ⟨hs.nodup, List.nodup_singleton _, ?_⟩
    intro k hk k' hk'
    simp only [List.map_cons, List.map_nil, List.mem_singleton] at hk'
    subst hk'
    exact fun h => hmem (h ▸ (hs.queued k).1 hk)
  · rw [← List.append_assoc, List.map_append, List.mem_append, hs.queued, ResolvePool.mem_add]
    simp only [List.map_cons, List.map_nil, List.mem_singleton]
    exact Or.comm
  -- at the new key the status is new; the other keys keep theirs
  · by_cases hk : k = key item
    · -- The new status holds the item alone: no item of the key was added before.
      subst hk
      rw [hlookup, Option.some.injEq] at h
      subst h
      simp only [List.mem_singleton, List.mem_append, PoolCall.add.injEq]
      constructor
      · rintro rfl
        exact ⟨⟨use_own_subnet, Or.inr ⟨rfl, rfl⟩⟩, rfl⟩
      · rintro ⟨⟨f, hf | ⟨rfl, rfl⟩⟩, hkey⟩
        · exact absurd hkey (hfresh t f hf)
        · rfl
    · exact (hs.add_of_ne item use_own_subnet hk h).1 t
  · by_cases hk : k = key item
    · subst hk
      rw [hlookup, Option.some.injEq] at h
      subst h
      -- No flag was passed for the new key before.
      have hflags : flagsFor key calls (key item) = false := by
        cases hf : flagsFor key calls (key item) with
        | false => rfl
        | true =>
          obtain ⟨t, f, ht, hkey⟩ := exists_add_of_flagsFor hf
          exact absurd hkey (hfresh t f ht)
      simp [PoolCall.flagFor, hflags]
    · exact (hs.add_of_ne item use_own_subnet hk h).2.1
  · by_cases hk : k = key item
    · -- A task set resolved was taken, so its key is filed: not the new one.
      subst hk
      rw [hlookup, Option.some.injEq] at h
      subst h
      simp only [List.mem_append, List.mem_singleton, reduceCtorEq, or_false, Bool.false_eq_true,
        false_iff, not_exists, not_and]
      intro task htask hkey
      have hq : task.key ∈ (s.taken ++ s.pool.queue).map ResolveTask.key :=
        List.mem_map.2 ⟨task, List.mem_append_left _ (hs.taken_of_resolved task htask), rfl⟩
      exact hmem (hkey ▸ (hs.queued _).1 hq)
    · exact (hs.add_of_ne item use_own_subnet hk h).2.2
  · exact hs.taken_of_resolved task (by simpa using h)

theorem Tracks.add (hs : Tracks calls s) (item : T) (use_own_subnet : Bool) :
    Tracks (calls ++ [.add item use_own_subnet]) { s with pool := s.pool.add item use_own_subnet } := by
  unfold QueuedPool.add
  split_ifs with hmem
  · exact hs.add_of_mem item use_own_subnet hmem
  · exact hs.add_of_not_mem item use_own_subnet hmem

omit [DecidableEq T] in
/-- `next` moves the oldest task from the queue to the resolver. -/
theorem Tracks.next (hs : Tracks calls s) {task : ResolveTask Key} {pool : QueuedPool Key T key}
    (h : s.pool.next = some (task, pool)) : Tracks (calls ++ [.next]) ⟨pool, s.taken ++ [task]⟩ := by
  -- The tasks queued so far, taken or not, are the same list.
  obtain ⟨queue, hqueue, rfl⟩ : ∃ queue, s.pool.queue = task :: queue ∧ pool = { s.pool with queue } := by
    unfold QueuedPool.next at h
    split at h
    · cases h
    · rename_i task' queue hq
      cases h
      exact ⟨queue, hq, rfl⟩
  have hall : (s.taken ++ [task]) ++ queue = s.taken ++ s.pool.queue := by simp [hqueue]
  have hadd : ∀ t f, PoolCall.add t f ∈ calls ++ [PoolCall.next] ↔ PoolCall.add t f ∈ calls := by simp
  have hres : ∀ task', PoolCall.setResolved task' ∈ calls ++ [PoolCall.next] ↔
      PoolCall.setResolved task' ∈ calls := by simp
  refine ⟨?_, fun k => ?_, fun k => ?_, fun k status h t => ?_, fun k status h => ?_,
    fun k status h => ?_, fun task' h => ?_⟩
  · rw [hall]
    exact hs.nodup
  · rw [hall]
    exact hs.queued k
  · simp only [hadd]
    exact hs.filed k
  · simp only [hadd]
    exact hs.items k status h t
  · simp only [flagsFor_append_singleton, PoolCall.flagFor, Bool.or_false]
    exact hs.flag k status h
  · simp only [hres]
    exact hs.resolved k status h
  · rw [hres] at h
    exact List.mem_append_left _ (hs.taken_of_resolved task' h)

omit [DecidableEq T] in
/-- `set_resolved` of a taken task resolves the status of its key. -/
theorem Tracks.setResolved (hs : Tracks calls s) {task : ResolveTask Key} (htask : task ∈ s.taken) :
    Tracks (calls ++ [.setResolved task]) { s with pool := s.pool.setResolved task } := by
  have hadd : ∀ t f, PoolCall.add t f ∈ calls ++ [PoolCall.setResolved task] ↔
      PoolCall.add t f ∈ calls := by simp
  refine ⟨hs.nodup, fun k => ?_, fun k => ?_, fun k status h t => ?_, fun k status h => ?_,
    fun k status h => ?_, fun task' h => ?_⟩
  · rw [QueuedPool.setResolved, ResolvePool.mem_setResolved]
    exact hs.queued k
  · rw [QueuedPool.setResolved, ResolvePool.mem_setResolved]
    simp only [hadd]
    exact hs.filed k
  · simp only [hadd]
    rw [QueuedPool.setResolved, ResolvePool.lookup_setResolved] at h
    split_ifs at h
    · obtain ⟨status', h', rfl⟩ := Option.map_eq_some_iff.1 h
      exact hs.items k status' h' t
    · exact hs.items k status h t
  · rw [flagsFor_append_singleton]
    rw [QueuedPool.setResolved, ResolvePool.lookup_setResolved] at h
    simp only [PoolCall.flagFor, Bool.or_false]
    split_ifs at h
    · obtain ⟨status', h', rfl⟩ := Option.map_eq_some_iff.1 h
      exact hs.flag k status' h'
    · exact hs.flag k status h
  · simp only [List.mem_append, List.mem_singleton, PoolCall.setResolved.injEq]
    rw [QueuedPool.setResolved, ResolvePool.lookup_setResolved] at h
    split_ifs at h with hk
    · -- The status of the task's key is now resolved, by this very call.
      obtain ⟨status', -, rfl⟩ := Option.map_eq_some_iff.1 h
      simp only [true_iff]
      exact ⟨task, Or.inr rfl, hk.symm⟩
    · rw [hs.resolved k status h]
      constructor
      · rintro ⟨task', h', hkey⟩
        exact ⟨task', Or.inl h', hkey⟩
      · rintro ⟨task', h' | rfl, hkey⟩
        · exact ⟨task', h', hkey⟩
        · exact absurd hkey.symm hk
  · simp only [List.mem_append, List.mem_singleton, PoolCall.setResolved.injEq] at h
    rcases h with h | rfl
    · exact hs.taken_of_resolved task' h
    · exact htask

theorem Tracks.step (hs : Tracks calls s) {c : PoolCall Key T} {s' : Resolution Key T key}
    (h : s.step c = some s') : Tracks (calls ++ [c]) s' := by
  cases c with
  | add item use_own_subnet =>
    cases h
    exact hs.add item use_own_subnet
  | next =>
    obtain ⟨⟨task, pool⟩, hnext, rfl⟩ := Option.map_eq_some_iff.1 h
    exact hs.next hnext
  | setResolved task =>
    simp only [Resolution.step] at h
    split_ifs at h with htask
    cases h
    exact hs.setResolved htask

/-- Every run keeps the record, by induction on the calls from the last one. -/
theorem tracks_run {calls : List (PoolCall Key T)} {s : Resolution Key T key}
    (h : run calls = some s) : Tracks calls s := by
  induction calls using List.reverseRecOn generalizing s with
  | nil =>
    cases h
    exact tracks_initial
  | append_singleton calls c ih =>
    rw [run, List.foldlM_append] at h
    obtain ⟨s₀, h₀, hc⟩ := Option.bind_eq_some_iff.1 h
    exact (ih h₀).step (by simpa using hc)

end Tracks

/-- The pool neither loses nor duplicates work. After any run of calls, the tasks queued, taken
or not, are one for each key of an added item; an added item's status holds exactly the items
added with its key and the OR of their flags; and `collect_resolved` returns exactly the added
items whose key had a task set resolved. -/
theorem resolvePool_tracks_calls {calls : List (PoolCall Key T)} {s : Resolution Key T key}
    (h : run calls = some s) :
    ((s.taken ++ s.pool.queue).map ResolveTask.key).Nodup ∧
    (∀ k, k ∈ (s.taken ++ s.pool.queue).map ResolveTask.key ↔
      ∃ t f, PoolCall.add t f ∈ calls ∧ key t = k) ∧
    (∀ item f, PoolCall.add item f ∈ calls → ∃ status, s.pool.items.getStatus item = some status ∧
      (∀ t, t ∈ status.items ↔ (∃ f', PoolCall.add t f' ∈ calls) ∧ key t = key item) ∧
      status.use_own_subnet = flagsFor key calls (key item)) ∧
    (∀ t, t ∈ s.pool.items.collectResolved ↔
      (∃ f, PoolCall.add t f ∈ calls) ∧ ∃ task, PoolCall.setResolved task ∈ calls ∧ task.key = key t) := by
  have hs := tracks_run h
  refine ⟨hs.nodup, fun k => (hs.queued k).trans (hs.filed k), fun item f hitem => ?_, fun t => ?_⟩
  · -- The item's key is filed, since the item was added.
    have hmem : key item ∈ s.pool.items.items := (hs.filed _).2 ⟨item, f, hitem, rfl⟩
    obtain ⟨status, hstatus⟩ := Option.isSome_iff_exists.1 (AList.lookup_isSome.2 hmem)
    exact ⟨status, hstatus, hs.items _ status hstatus, hs.flag _ status hstatus⟩
  · rw [ResolvePool.mem_collectResolved]
    constructor
    · rintro ⟨status, hstatus, hres, ht⟩
      exact ⟨((hs.items _ status hstatus t).1 ht).1, (hs.resolved _ status hstatus).1 hres⟩
    · rintro ⟨⟨f, ht⟩, hres⟩
      have hmem : key t ∈ s.pool.items.items := (hs.filed _).2 ⟨t, f, ht, rfl⟩
      obtain ⟨status, hstatus⟩ := Option.isSome_iff_exists.1 (AList.lookup_isSome.2 hmem)
      exact ⟨status, hstatus, (hs.resolved _ status hstatus).2 hres,
        (hs.items _ status hstatus t).2 ⟨⟨f, ht⟩, rfl⟩⟩

/-- An item added again after its task was taken, then resolved, is collected; an item of a key
never set resolved is not. -/
theorem resolvePool_collects_readded_item :
    let calls : List (PoolCall Nat Nat) :=
      [.add 1 false, .next, .add 1 true, .setResolved ⟨1⟩, .add 2 false]
    ∃ s : Resolution Nat Nat id, run calls = some s ∧
      1 ∈ s.pool.items.collectResolved ∧ 2 ∉ s.pool.items.collectResolved := by
  intro calls
  have hsome : (run calls : Option (Resolution Nat Nat id)).isSome := by decide
  obtain ⟨s, hs⟩ := Option.isSome_iff_exists.1 hsome
  have hcollect := (resolvePool_tracks_calls hs).2.2.2
  refine ⟨s, hs, (hcollect 1).2 ⟨⟨false, by decide⟩, ⟨1⟩, by decide, rfl⟩, fun h => ?_⟩
  -- The one task set resolved is of key 1.
  obtain ⟨-, task, htask, hkey⟩ := (hcollect 2).1 h
  simp only [calls, List.mem_cons, reduceCtorEq, PoolCall.setResolved.injEq, List.not_mem_nil,
    or_false, false_or] at htask
  subst htask
  cases hkey

end Resolution

end Delorean.Chain
