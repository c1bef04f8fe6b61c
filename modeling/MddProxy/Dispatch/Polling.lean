import MddProxy.Dispatch.Announcing

/-!
# The dispatcher behind an edge-triggered poller

`RegisterSocket` asks for `EPOLLET`: the kernel lists a descriptor when something arrives
on it and takes it off the list when `epoll_wait` returns it, whether or not anybody reads.
A datagram that waits is not announced again, so somebody must still be on the way to it:
the ready list, the batch of `ProcessData`, the pending queue, a worker that has not started
on its socket, or a call of `ReceiveData` that has not seen the empty queue.
-/
namespace MddProxy

open Interleaving

/-- A dispatcher with the ready list of its epoll handle. -/
structure Polled where
  system : System
  ready : List Fd

namespace Polled

inductive Action where
  /-- The kernel queues a datagram. -/
  | arrive (fd : Fd) (d : Datagram)
  /-- The kernel lists a descriptor for another reason, such as an error on it. -/
  | flag (fd : Fd)
  /-- `WaitForData` gets the first `n` listed descriptors and calls `ProcessData` on them. -/
  | wait (n : ℕ)
  /-- Any other step of the program. -/
  | program (a : System.Action)
  deriving DecidableEq

def ofProgram : System.Action → Bool
  | .arrive _ _ | .processData _ => false
  | .dispatch | .addWorkers _ | .add | .stop | .sweep | .thread _ _ | .sendFails _ _ => true

def enlist (ready : List Fd) (fd : Fd) : List Fd := if fd ∈ ready then ready else ready ++ [fd]

def step (t : Polled) : Action → Option Polled
  | .arrive fd d => (t.system.step (.arrive fd d)).map fun s' => ⟨s', enlist t.ready fd⟩
  | .flag fd => (t.system.receivers fd).map fun _ => { t with ready := enlist t.ready fd }
  | .wait n =>
    if 0 < n ∧ t.ready ≠ [] then
      (t.system.step (.processData (t.ready.take n))).map fun s' => ⟨s', t.ready.drop n⟩
    else none
  | .program a =>
    if ofProgram a = true then (t.system.step a).map fun s' => { t with system := s' } else none

def start (count : ℕ) (senders : Fd → Option ℕ) (junk : Junk) : Polled where
  system := .start count senders junk
  ready := []

def systemAction (t : Polled) : Action → Option System.Action
  | .arrive fd d => some (.arrive fd d)
  | .flag _ => none
  | .wait n => some (.processData (t.ready.take n))
  | .program a => some a

/-- A guard on the steps of the dispatcher. -/
def Under (ok : System → System.Action → Prop) (t : Polled) (a : Action) : Prop :=
  ∀ b ∈ t.systemAction a, ok t.system b

instance (ok : System → System.Action → Prop) [∀ s a, Decidable (ok s a)] (t : Polled)
    (a : Action) : Decidable (t.Under ok a) :=
  inferInstanceAs (Decidable (∀ b ∈ t.systemAction a, ok t.system b))

variable {t t' : Polled} {fd : Fd} {f : Feed} {n : ℕ}

theorem arrive_eq {d : Datagram} (hs : t.step (.arrive fd d) = some t') :
    ∃ s', t.system.step (.arrive fd d) = some s' ∧ t' = ⟨s', enlist t.ready fd⟩ := by
  obtain ⟨s', hs', rfl⟩ := Option.map_eq_some_iff.mp hs
  exact ⟨s', hs', rfl⟩

theorem wait_eq (hs : t.step (.wait n) = some t') : (0 < n ∧ t.ready ≠ []) ∧
    ∃ s', t.system.step (.processData (t.ready.take n)) = some s' ∧
      t' = ⟨s', t.ready.drop n⟩ := by
  simp only [step] at hs
  split_ifs at hs with hn
  obtain ⟨s', hs', rfl⟩ := Option.map_eq_some_iff.mp hs
  exact ⟨hn, s', hs', rfl⟩

theorem program_eq {a : System.Action} (hs : t.step (.program a) = some t') :
    ofProgram a = true ∧ ∃ s', t.system.step a = some s' ∧ t' = { t with system := s' } := by
  simp only [step] at hs
  split_ifs at hs with hown
  obtain ⟨s', hs', rfl⟩ := Option.map_eq_some_iff.mp hs
  exact ⟨hown, s', hs', rfl⟩

theorem le_count_enlist (ready : List Fd) (fd fd' : Fd) :
    ready.count fd' ≤ (enlist ready fd).count fd' := by
  unfold enlist
  split
  · exact Nat.le_refl _
  · rw [List.count_append]
    exact Nat.le_add_right _ _

theorem count_enlist_pos (ready : List Fd) (fd : Fd) : 0 < (enlist ready fd).count fd := by
  unfold enlist
  split
  next h => exact List.count_pos_iff.mpr h
  next => simp

theorem system_step {a : Action} (hs : t.step a = some t') :
    (∃ b, t.systemAction a = some b ∧ t.system.step b = some t'.system) ∨
      t.systemAction a = none ∧ t'.system = t.system := by
  cases a with
  | arrive fd d =>
    obtain ⟨s', hs', rfl⟩ := arrive_eq hs
    exact .inl ⟨_, rfl, hs'⟩
  | flag fd =>
    obtain ⟨f, -, rfl⟩ := Option.map_eq_some_iff.mp hs
    exact .inr ⟨rfl, rfl⟩
  | wait n =>
    obtain ⟨-, s', hs', rfl⟩ := wait_eq hs
    exact .inl ⟨_, rfl, hs'⟩
  | program a =>
    obtain ⟨-, s', hs', rfl⟩ := program_eq hs
    exact .inl ⟨_, rfl, hs'⟩

/-- The dispatcher of a polled run makes a run of its own. -/
theorem reaches_system {ok : System → System.Action → Prop} {t₀ : Polled}
    (h : Reaches step (Under ok) t₀ t) : Reaches System.step ok t₀.system t.system := by
  obtain ⟨s, hs, rfl⟩ : ∃ s, Reaches System.step ok t₀.system s ∧ s = t.system := by
    apply h.simulation (R := fun t s => s = t.system) rfl
    rintro t a t' _ rfl hok hs
    rcases system_step hs with ⟨b, hb, hs⟩ | ⟨-, heq⟩
    · exact ⟨t'.system, .single (hok b hb) hs, rfl⟩
    · exact ⟨t.system, .refl, heq.symm⟩
  exact hs

/-- The edges that the kernel holds are enough for the datagrams that wait. -/
def Followed (t : Polled) : Prop := ∀ fd, t.system.Announced fd (t.ready.count fd)

theorem followed_start (count : ℕ) (senders : Fd → Option ℕ) (junk : Junk) :
    (start count senders junk).Followed := by
  intro fd f hf hwait
  obtain ⟨n, -, rfl⟩ := Option.map_eq_some_iff.mp hf
  simp [Feed.waiting, Feed.fresh] at hwait

theorem Followed.arrive {d : Datagram} (hi : t.Followed) (hk : t.system.Kept)
    (hs : t.step (.arrive fd d) = some t') : t'.Followed := by
  obtain ⟨s', hs', rfl⟩ := arrive_eq hs
  intro fd' f' hf' hwait
  obtain ⟨f, hf, rfl⟩ := System.arrive_eq hs'
  by_cases hfd : fd' = fd
  · -- the edge itself
    subst hfd
    have hle := hk.conserved.started_le fd'
    have hpos := count_enlist_pos t.ready fd'
    simp only [System.calls]
    omega
  · have hf : t.system.receivers fd' = some f' := by
      simpa [Function.update_of_ne hfd] using hf'
    have hlt := hi fd' f' hf hwait
    have hle := le_count_enlist t.ready fd fd'
    simp only [System.calls] at hlt ⊢
    omega

theorem Followed.wait (hi : t.Followed) (hs : t.step (.wait n) = some t') : t'.Followed := by
  obtain ⟨-, s', hs', rfl⟩ := wait_eq hs
  cases (System.step_move hs').2 with
  | processData _ hidle =>
    intro fd f hf hwait
    have hlt := hi fd f hf hwait
    have hsplit := congrArg (List.count fd) (List.take_append_drop n t.ready)
    rw [List.count_append] at hsplit
    simp only [System.calls, hidle, DispatchPc.upcoming, List.count_nil] at hlt ⊢
    omega

theorem Followed.step {a : Action} (hi : t.Followed) (hk : t.system.Kept)
    (hok : t.Under System.Attended a) (hs : t.step a = some t') : t'.Followed := by
  cases a with
  | arrive fd d => exact hi.arrive hk hs
  | flag fd =>
    obtain ⟨f, -, rfl⟩ := Option.map_eq_some_iff.mp hs
    intro fd' f' hf' hwait
    apply Nat.lt_of_lt_of_le (hi fd' f' hf' hwait)
    exact Nat.add_le_add_left (le_count_enlist t.ready fd fd') _
  | wait n => exact hi.wait hs
  | program a =>
    obtain ⟨hown, s', hs', rfl⟩ := program_eq hs
    intro fd
    apply (hi fd).step hk.noneEmpty (hok a rfl) _ _ hs'
    · rintro fd d rfl
      cases hown
    · rintro evs rfl
      cases hown

theorem followed_of_reaches {count : ℕ} {senders : Fd → Option ℕ} {junk : Junk}
    (h : Reaches step (Under System.Attended) (start count senders junk) t) :
    t.system.Kept ∧ t.Followed := by
  apply h.invariant (I := fun t => t.system.Kept ∧ t.Followed)
    ⟨System.kept_start count senders junk, followed_start count senders junk⟩
  rintro t a t' ⟨hk, hi⟩ hok hs
  refine ⟨?_, hi.step hk hok hs⟩
  rcases system_step hs with ⟨b, hb, hs⟩ | ⟨-, heq⟩
  · exact hk.step (hok b hb) hs
  · rw [heq]
    exact hk

/-- **No datagram is forgotten**: in a run on datagrams with at least a byte that creates each
worker once and takes none with a refused length, a datagram that waits on a descriptor has the
ready list, the batch, the pending queue, a worker that has not started or a `ReceiveData` call
on its descriptor. -/
theorem waiting_datagram_followed {count : ℕ} {senders : Fd → Option ℕ} {junk : Junk}
    (h : Reaches step (Under System.Attended) (start count senders junk) t)
    (hf : t.system.receivers fd = some f) (hwait : f.waiting ≠ []) :
    fd ∈ t.ready ∨ fd ∈ t.system.dispatching.upcoming ∨ t.system.dispatching.hand = some fd ∨
      fd ∈ t.system.pendingItems ∨ (∃ wk ∈ t.system.heap, fd ∈ wk.inFlight) ∨
      ∃ w k pc, t.system.pcAt w k = some pc ∧ pc.serving fd = true := by
  obtain ⟨hk, hi⟩ := followed_of_reaches h
  apply (System.exists_caller hk.conserved (hi fd f hf hwait)).imp_left
  exact List.count_pos_iff.mp

def elevenPolled : Polled := start 5 (fun fd => if fd < 11 then some 1 else none) .zeroed

/-- A datagram is read and not sent yet when a second one arrives. -/
theorem waiting_datagram_followed_second : ∃ t f,
    Reaches step (Under System.Attended) elevenPolled t ∧ t.system.receivers 0 = some f ∧
      f.waiting = [[2]] ∧ (0 ∈ t.ready ∨ 0 ∈ t.system.dispatching.upcoming ∨
        t.system.dispatching.hand = some 0 ∨ 0 ∈ t.system.pendingItems ∨
        (∃ wk ∈ t.system.heap, 0 ∈ wk.inFlight) ∨
        ∃ w k pc, t.system.pcAt w k = some pc ∧ pc.serving 0 = true) := by
  obtain ⟨t, ht, f, hf, hwait⟩ : ∃ t, Reaches step (Under System.Attended) elevenPolled t ∧
      ∃ f ∈ t.system.receivers 0, f.waiting = [[2]] :=
    exists_reaches_of_runChecked
      ([.arrive 0 [1], .wait 1] ++ List.replicate 5 (.program .dispatch) ++
        List.replicate 3 (.program (.thread 0 0)) ++ [.arrive 0 [2]]) (by decide)
  exact ⟨t, f, ht, hf, hwait, waiting_datagram_followed ht hf (by simp [hwait])⟩

end Polled
end MddProxy
