import MddProxy.Interleaving.Rest
import MddProxy.Interleaving.Slots
import Mathlib.Data.Finset.Max

/-!
# Threads that take locks in order

Any number of threads make calls, each a list of operations on locks that are not
recursive; a handler may interrupt a thread in the middle of one. Where every call takes
its locks in increasing rank, releases all of them and sleeps with none in hand, and
handlers interrupt no thread that holds a lock, the threads never wait for each other in a
circle: whenever a thread is inside a call and awake, some thread can go on.
-/
namespace Interleaving

variable {L : Type*}

inductive LockOp (L : Type*) where
  | acquire (l : L)
  | release (l : L)
  /-- Asleep until somebody wakes it. -/
  | sleep
  deriving DecidableEq, Repr

/-- The locks a thread holds and what is left of the call it is inside. -/
structure LockThread (L : Type*) where
  held : List L
  left : List (LockOp L)
  deriving DecidableEq, Repr

inductive LockAction (L : Type*) where
  /-- Thread `i`, inside no call, makes one. -/
  | call (i : ℕ) (ops : List (LockOp L))
  /-- A handler makes a call on thread `i`, wherever that is. -/
  | interrupt (i : ℕ) (ops : List (LockOp L))
  | advance (i : ℕ)
  | wake (i : ℕ)
  deriving DecidableEq, Repr

namespace LockThread

def outside : LockThread L := ⟨[], []⟩

def awake (t : LockThread L) : Bool :=
  match t.left with
  | [] | .sleep :: _ => false
  | .acquire _ :: _ | .release _ :: _ => true

variable [DecidableEq L]

/-- The next operation of a thread among `ts`; a lock is given only when nobody holds it. -/
def advance (ts : List (LockThread L)) (t : LockThread L) : Option (LockThread L) :=
  match t.left with
  | [] | .sleep :: _ => none
  | .acquire l :: ops =>
    if ∀ u ∈ ts, l ∉ u.held then some { held := l :: t.held, left := ops } else none
  | .release l :: ops => some { held := t.held.erase l, left := ops }

def wake (t : LockThread L) : Option (LockThread L) :=
  match t.left with
  | .sleep :: ops => some { t with left := ops }
  | _ => none

def call (t : LockThread L) (ops : List (LockOp L)) : Option (LockThread L) :=
  if t.left = [] then some { t with left := ops } else none

def interrupt (t : LockThread L) (ops : List (LockOp L)) : LockThread L :=
  { t with left := ops ++ t.left }

end LockThread

/-- A critical section. -/
def critical (l : L) (body : List (LockOp L)) : List (LockOp L) :=
  .acquire l :: (body ++ [.release l])

variable [DecidableEq L]

def lockStep (ts : List (LockThread L)) : LockAction L → Option (List (LockThread L))
  | .call i ops => (ts[i]?).bind fun t => (t.call ops).map (ts.set i)
  | .interrupt i ops => (ts[i]?).map fun t => ts.set i (t.interrupt ops)
  | .advance i => (ts[i]?).bind fun t => (t.advance ts).map (ts.set i)
  | .wake i => (ts[i]?).bind fun t => t.wake.map (ts.set i)

variable {ρ : Type*} [LinearOrder ρ] (rank : L → ρ)

/-- The rest of a call, for a thread that holds `held`: locks are taken in increasing rank,
only locks in hand are released, and none is in hand at the end or during a sleep. -/
def Ordered : List L → List (LockOp L) → Prop
  | held, [] => held = []
  | held, .acquire l :: ops => (∀ h ∈ held, rank h < rank l) ∧ Ordered (l :: held) ops
  | held, .release l :: ops => l ∈ held ∧ Ordered (held.erase l) ops
  | held, .sleep :: ops => held = [] ∧ Ordered [] ops

/-- Operations that leave a thread with the locks it had, in order all along. -/
def Neutral (held : List L) (ops : List (LockOp L)) : Prop :=
  ∀ rest, Ordered rank held rest → Ordered rank held (ops ++ rest)

/-- The guard: every call takes its locks in order, and handlers interrupt only threads
that hold none. -/
def CallsOrdered (ts : List (LockThread L)) : LockAction L → Prop
  | .call _ ops => Neutral rank [] ops
  | .interrupt i ops => Neutral rank [] ops ∧ ∀ t ∈ ts[i]?, t.held = []
  | .advance _ | .wake _ => True

/-- What the guard preserves. -/
structure Disciplined (ts : List (LockThread L)) : Prop where
  ordered : ∀ t ∈ ts, Ordered rank t.held t.left
  nodup : ∀ t ∈ ts, t.held.Nodup
  exclusive : ∀ (i j : ℕ) (t u : LockThread L) (l : L), ts[i]? = some t → ts[j]? = some u →
    l ∈ t.held → l ∈ u.held → i = j

variable {rank} {ts ts' : List (LockThread L)} {t t' u : LockThread L} {i : ℕ} {l : L}
  {ops : List (LockOp L)}

section Calls

variable {held : List L} {ops' : List (LockOp L)}

theorem neutral_nil : Neutral rank held [] := fun _ => id

theorem Neutral.append (h : Neutral rank held ops) (h' : Neutral rank held ops') :
    Neutral rank held (ops ++ ops') := by
  intro rest hrest
  rw [List.append_assoc]
  exact h _ (h' rest hrest)

theorem Neutral.repeated (h : Neutral rank held ops) (n : ℕ) :
    Neutral rank held (List.replicate n ops).flatten := by
  induction n with
  | zero => exact neutral_nil
  | succ n ih =>
    rw [List.replicate_succ, List.flatten_cons]
    exact h.append ih

theorem Neutral.critical (hrank : ∀ h ∈ held, rank h < rank l)
    (hbody : Neutral rank (l :: held) ops) : Neutral rank held (critical l ops) := by
  intro rest hrest
  have hbody := hbody (.release l :: rest)
  refine ⟨hrank, ?_⟩
  rw [List.append_eq, List.append_assoc]
  apply hbody
  refine ⟨List.mem_cons_self, ?_⟩
  rwa [List.erase_cons_head]

/-- Giving up the only lock in hand for a sleep and taking it again. -/
theorem neutral_wait (l : L) : Neutral rank [l] [.release l, .sleep, .acquire l] := by
  intro rest hrest
  refine ⟨List.mem_cons_self, ?_⟩
  rw [List.erase_cons_head]
  exact ⟨rfl, nofun, hrest⟩

theorem Neutral.ordered (h : Neutral rank [] ops) : Ordered rank [] ops := by
  have hall := h [] rfl
  rwa [List.append_nil] at hall

end Calls

theorem disciplined_outside (n : ℕ) :
    Disciplined rank (List.replicate n (LockThread.outside : LockThread L)) where
  ordered t ht := by
    rw [List.eq_of_mem_replicate ht]
    rfl
  nodup t ht := by
    rw [List.eq_of_mem_replicate ht]
    exact List.nodup_nil
  exclusive i j t u l hi _ hl _ := by
    rw [List.eq_of_mem_replicate (List.mem_of_getElem? hi)] at hl
    simp [LockThread.outside] at hl

theorem Disciplined.set (hd : Disciplined rank ts) (hi : ts[i]? = some t)
    (hordered : Ordered rank t'.held t'.left) (hnodup : t'.held.Nodup)
    (hnew : ∀ l ∈ t'.held, l ∈ t.held ∨ ∀ u ∈ ts, l ∉ u.held) :
    Disciplined rank (ts.set i t') where
  ordered := forall_mem_set hd.ordered hordered
  nodup := forall_mem_set hd.nodup hnodup
  exclusive j k u v l hj hk hl hl' := by
    -- a lock of the thread that moved is its own from before, or nobody else's
    have hother : ∀ m w, m ≠ i → ts[m]? = some w → l ∈ t'.held → l ∈ w.held → False := by
      intro m w hne hm hmine hyours
      rcases hnew l hmine with hold | hfree
      · exact hne (hd.exclusive m i w t l hm hi hyours hold)
      · exact hfree w (List.mem_of_getElem? hm) hyours
    rcases getElem?_set_cases hj with ⟨hji, rfl⟩ | ⟨hne, hj₀⟩ <;>
      rcases getElem?_set_cases hk with ⟨hki, rfl⟩ | ⟨hne', hk₀⟩
    · rw [hji, hki]
    · exact (hother k v hne' hk₀ hl hl').elim
    · exact (hother j u hne hj₀ hl' hl).elim
    · exact hd.exclusive j k u v l hj₀ hk₀ hl hl'

theorem Disciplined.step {a : LockAction L} (hd : Disciplined rank ts)
    (hok : CallsOrdered rank ts a) (hs : lockStep ts a = some ts') : Disciplined rank ts' := by
  cases a with
  | call i ops =>
    simp only [lockStep, Option.bind_eq_some_iff, Option.map_eq_some_iff] at hs
    obtain ⟨t, hi, t', hcall, rfl⟩ := hs
    have hmem := List.mem_of_getElem? hi
    simp only [LockThread.call, Option.ite_none_right_eq_some, Option.some.injEq] at hcall
    obtain ⟨hleft, rfl⟩ := hcall
    have hheld : t.held = [] := by
      have hordered := hd.ordered t hmem
      rwa [hleft] at hordered
    refine hd.set hi ?_ (hd.nodup t hmem) fun l hl => .inl hl
    rw [hheld]
    exact hok.ordered
  | interrupt i ops =>
    simp only [lockStep, Option.map_eq_some_iff] at hs
    obtain ⟨t, hi, rfl⟩ := hs
    have hmem := List.mem_of_getElem? hi
    have hheld : t.held = [] := hok.2 t hi
    refine hd.set hi ?_ (hd.nodup t hmem) fun l hl => .inl hl
    have hordered := hd.ordered t hmem
    simp only [LockThread.interrupt, hheld] at hordered ⊢
    exact hok.1 _ hordered
  | advance i =>
    simp only [lockStep, Option.bind_eq_some_iff, Option.map_eq_some_iff] at hs
    obtain ⟨t, hi, t', hadvance, rfl⟩ := hs
    have hmem := List.mem_of_getElem? hi
    have hordered := hd.ordered t hmem
    unfold LockThread.advance at hadvance
    split at hadvance
    · cases hadvance
    · cases hadvance
    next l ops hleft =>
      rw [hleft] at hordered
      obtain ⟨hfree, rfl⟩ := by simpa using hadvance
      refine hd.set hi hordered.2 (List.nodup_cons.mpr ⟨hfree t hmem, hd.nodup t hmem⟩) ?_
      intro l' hl'
      rcases List.mem_cons.mp hl' with rfl | hl'
      · exact .inr hfree
      · exact .inl hl'
    next l ops hleft =>
      rw [hleft] at hordered
      obtain rfl := by simpa using hadvance
      exact hd.set hi hordered.2 ((hd.nodup t hmem).erase l)
        fun l' hl' => .inl (List.mem_of_mem_erase hl')
  | wake i =>
    simp only [lockStep, Option.bind_eq_some_iff, Option.map_eq_some_iff] at hs
    obtain ⟨t, hi, t', hwake, rfl⟩ := hs
    have hmem := List.mem_of_getElem? hi
    have hordered := hd.ordered t hmem
    unfold LockThread.wake at hwake
    split at hwake
    next ops hleft =>
      rw [hleft] at hordered
      obtain rfl := by simpa using hwake
      refine hd.set hi ?_ (hd.nodup t hmem) fun l hl => .inl hl
      simp only [hordered.1]
      exact hordered.2
    · cases hwake

def LockThread.wants (t : LockThread L) : Option L :=
  match t.left with
  | .acquire l :: _ => some l
  | _ => none

/-- An awake thread that cannot go on waits for a lock that somebody holds. -/
theorem waits_of_stuck (hi : ts[i]? = some t) (hawake : t.awake = true)
    (hstuck : lockStep ts (.advance i) = none) :
    ∃ l, t.wants = some l ∧ ∃ (j : ℕ) (u : LockThread L), ts[j]? = some u ∧ l ∈ u.held := by
  have hnone : t.advance ts = none := by simpa [lockStep, hi] using hstuck
  unfold LockThread.advance at hnone
  unfold LockThread.awake at hawake
  split at hawake
  · cases hawake
  · cases hawake
  next l ops hleft =>
    refine ⟨l, by simp [LockThread.wants, hleft], ?_⟩
    have hheld : ∃ u ∈ ts, l ∈ u.held := by simpa [hleft] using hnone
    obtain ⟨u, hu, hl⟩ := hheld
    obtain ⟨j, hj⟩ := List.getElem?_of_mem hu
    exact ⟨j, u, hj, hl⟩
  next l ops hleft => simp [hleft] at hnone

/-- A thread that holds a lock is awake, and wants only locks of higher rank. -/
theorem Disciplined.holder (hd : Disciplined rank ts) (hi : ts[i]? = some t) (hl : l ∈ t.held) :
    t.awake = true ∧ ∀ l', t.wants = some l' → rank l < rank l' := by
  have hordered := hd.ordered t (List.mem_of_getElem? hi)
  cases hleft : t.left with
  | nil =>
    have hnone : t.held = [] := by rwa [hleft] at hordered
    simp [hnone] at hl
  | cons op ops =>
    rw [hleft] at hordered
    cases op with
    | acquire l' =>
      refine ⟨by simp [LockThread.awake, hleft], fun l₀ hl₀ => ?_⟩
      obtain rfl : l' = l₀ := by simpa [LockThread.wants, hleft] using hl₀
      exact hordered.1 l hl
    | release l' =>
      exact ⟨by simp [LockThread.awake, hleft], by simp [LockThread.wants, hleft]⟩
    | sleep =>
      have hnone : t.held = [] := hordered.1
      simp [hnone] at hl

/-- **No deadlock**: while some thread is inside a call and awake, some thread can go on. -/
theorem Disciplined.progress (hd : Disciplined rank ts)
    (hsome : ∃ t ∈ ts, t.awake = true) : ∃ i, (lockStep ts (.advance i)).isSome = true := by
  by_contra hnone
  push Not at hnone
  have hstuck : ∀ i, lockStep ts (.advance i) = none := fun i => by simpa using hnone i
  -- of the locks that are waited for, one of highest rank
  let waited : Finset L := (ts.filterMap LockThread.wants).toFinset
  have hmem : ∀ l, l ∈ waited ↔ ∃ t ∈ ts, t.wants = some l := by simp [waited]
  obtain ⟨t, ht, hawake⟩ := hsome
  obtain ⟨i, hi⟩ := List.getElem?_of_mem ht
  obtain ⟨l₀, hwants, -⟩ := waits_of_stuck hi hawake (hstuck i)
  obtain ⟨l, hl, hmax⟩ := waited.exists_max_image rank ⟨l₀, (hmem l₀).mpr ⟨t, ht, hwants⟩⟩
  obtain ⟨u, hu, hwantsl⟩ := (hmem l).mp hl
  obtain ⟨j, hj⟩ := List.getElem?_of_mem hu
  have hawakeu : u.awake = true := by
    unfold LockThread.wants at hwantsl
    unfold LockThread.awake
    split at hwantsl
    next hleft => simp [hleft]
    · cases hwantsl
  -- its holder waits for a lock of still higher rank
  obtain ⟨l', hwantsl', k, v, hk, hheld⟩ := waits_of_stuck hj hawakeu (hstuck j)
  obtain rfl : l = l' := Option.some.inj (hwantsl.symm.trans hwantsl')
  obtain ⟨hawakev, hhigher⟩ := hd.holder hk hheld
  obtain ⟨l'', hwantsl'', -⟩ := waits_of_stuck hk hawakev (hstuck k)
  have hle := hmax l'' ((hmem l'').mpr ⟨v, List.mem_of_getElem? hk, hwantsl''⟩)
  exact absurd (hhigher l'' hwantsl'') (not_lt_of_ge hle)

def NoCalls (_ : List (LockThread L)) : LockAction L → Prop
  | .call _ _ | .interrupt _ _ => False
  | .advance _ | .wake _ => True

def opsLeft (ts : List (LockThread L)) : ℕ := weigh (fun t => t.left.length) ts

theorem LockThread.advance_left (h : t.advance ts = some t') :
    t'.left.length + 1 = t.left.length := by
  unfold LockThread.advance at h
  split at h
  · cases h
  · cases h
  next hleft =>
    obtain ⟨-, rfl⟩ := by simpa using h
    simp [hleft]
  next hleft =>
    obtain rfl := by simpa using h
    simp [hleft]

omit [DecidableEq L] in
theorem LockThread.wake_left (h : t.wake = some t') : t'.left.length + 1 = t.left.length := by
  unfold LockThread.wake at h
  split at h
  next hleft =>
    obtain rfl := by simpa using h
    simp [hleft]
  · cases h

theorem lowers_opsLeft : Lowers lockStep NoCalls (Disciplined rank) (opsLeft (L := L)) where
  keeps ts a ts' hd hok hs := by
    refine hd.step ?_ hs
    cases a with
    | call => exact hok.elim
    | interrupt => exact hok.elim
    | advance => trivial
    | wake => trivial
  lowers ts a ts' _ hok hs := by
    have hset : ∀ (i : ℕ) (t t' : LockThread L), ts[i]? = some t → ts.set i t' = ts' →
        t'.left.length + 1 = t.left.length → opsLeft ts' < opsLeft ts := by
      intro i t t' hi hts hless
      have hw := weigh_set (fun t : LockThread L => t.left.length) t' hi
      rw [hts] at hw
      unfold opsLeft
      omega
    cases a with
    | call => exact hok.elim
    | interrupt => exact hok.elim
    | advance i =>
      simp only [lockStep, Option.bind_eq_some_iff, Option.map_eq_some_iff] at hs
      obtain ⟨t, hi, t', hadvance, hts⟩ := hs
      exact hset i t t' hi hts (LockThread.advance_left hadvance)
    | wake i =>
      simp only [lockStep, Option.bind_eq_some_iff, Option.map_eq_some_iff] at hs
      obtain ⟨t, hi, t', hwake, hts⟩ := hs
      exact hset i t t' hi hts (LockThread.wake_left hwake)

theorem Disciplined.returned (hd : Disciplined rank ts) (hrest : Rests lockStep NoCalls ts) :
    ∀ t ∈ ts, t.left = [] ∧ t.held = [] := by
  have hasleep : ∀ t ∈ ts, t.awake = false := by
    by_contra hsome
    push Not at hsome
    obtain ⟨t, ht, hawake⟩ := hsome
    obtain ⟨i, hi⟩ := hd.progress ⟨t, ht, by simpa using hawake⟩
    rw [hrest (.advance i) trivial] at hi
    cases hi
  intro t ht
  have hordered := hd.ordered t ht
  have hquiet := hasleep t ht
  unfold LockThread.awake at hquiet
  split at hquiet
  next hleft =>
    rw [hleft] at hordered
    exact ⟨hleft, hordered⟩
  next ops hleft =>
    obtain ⟨i, hi⟩ := List.getElem?_of_mem ht
    have hwake := hrest (.wake i) trivial
    simp [lockStep, hi, LockThread.wake, hleft] at hwake
  · cases hquiet
  · cases hquiet

end Interleaving
