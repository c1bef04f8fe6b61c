import MddProxy.Config.Readiness
import Mathlib.Data.Int.Order.Basic
import Mathlib.Data.Nat.Basic

/-!
# The buffer of events

The constructor of `Epoller` allocates `events` for the `fdCount` it has just set to zero,
and no other function allocates it again. `RegisterSocket` increments `fdCount`, and
`WaitForData` clears that many entries, lets `epoll_wait` fill as many and hands what was
filled to `ProcessData`.
-/
namespace MddProxy

open PropertyTree Collections

/-- An `Epoller` with the number of `epoll_event` slots behind `events`, the slots accessed
so far, and every `maxevents` passed to `epoll_wait`. -/
structure EventBuffer where
  slots : ℕ
  fdCount : UInt32
  accessed : List ℕ
  maxEvents : List ℤ
  deriving DecidableEq, Repr

/-- A call from outside with the answer of the kernel: what `epoll_ctl` returns, and the
descriptors that `epoll_wait` stores. -/
inductive EpollerCall where
  | registerSocket (retCode : ℤ)
  | waitForData (evList : List Fd)
  | waitFails
  deriving DecidableEq, Repr

def EpollerCall.Registers : EpollerCall → Prop
  | .registerSocket retCode => 0 ≤ retCode
  | .waitForData _ | .waitFails => False

namespace EventBuffer

/-- `fdCount = 0; events = new struct epoll_event[fdCount];` -/
def new : EventBuffer where
  slots := 0
  fdCount := 0
  accessed := []
  maxEvents := []

/-- `fdCount` as the `int` that `epoll_wait` takes. -/
def maxevents (s : EventBuffer) : ℤ := s.fdCount.toBitVec.toInt

def registerSocket (retCode : ℤ) (s : EventBuffer) : EventBuffer :=
  if retCode < 0 then s else { s with fdCount := s.fdCount + 1 }

/-- The indices that the loop of `ProcessData` reads from `i` on; it throws at a descriptor
without a receiver. -/
def processData (known : Fd → Bool) (i : ℕ) : List Fd → List ℕ
  | [] => []
  | fd :: evList => i :: (if known fd then processData known (i + 1) evList else [])

/-- `WaitForData` up to the return of `epoll_wait`, which stores `evList`. -/
def waited (evList : List Fd) (s : EventBuffer) : EventBuffer :=
  { s with
    accessed := s.accessed ++ List.range s.fdCount.toNat ++ List.range evList.length
    maxEvents := s.maxEvents ++ [s.maxevents] }

def processed (known : Fd → Bool) (evList : List Fd) (s : EventBuffer) : EventBuffer :=
  { s with accessed := s.accessed ++ processData known 0 evList }

/-- `epoll_wait` refuses a `maxevents` that is not positive and stores at most that many. -/
def step (known : Fd → Bool) (s : EventBuffer) : EpollerCall → Option EventBuffer
  | .registerSocket retCode => some (s.registerSocket retCode)
  | .waitForData evList =>
    if 0 < s.maxevents ∧ (evList.length : ℤ) ≤ s.maxevents then
      some ((s.waited evList).processed known evList)
    else none
  | .waitFails => some (s.waited [])

/-- The allocation covers `fdCount` and everything that has been done with the buffer. -/
structure InBounds (s : EventBuffer) : Prop where
  fdCount : s.fdCount.toNat ≤ s.slots
  accessed : ∀ i ∈ s.accessed, i < s.slots
  maxEvents : ∀ n ∈ s.maxEvents, n ≤ s.slots

/-- An access behind the allocation: what the program does from then on is undefined. -/
def Overrun (s : EventBuffer) : Prop := ∃ i ∈ s.accessed, s.slots ≤ i

instance (s : EventBuffer) : Decidable s.Overrun := inferInstanceAs (Decidable (∃ _ ∈ _, _))

variable {known : Fd → Bool} {s s' : EventBuffer} {call : EpollerCall}
  {calls : List EpollerCall} {evList : List Fd}

theorem inBounds_new : new.InBounds := ⟨le_rfl, nofun, nofun⟩

theorem maxevents_le (s : EventBuffer) : s.maxevents ≤ s.fdCount.toNat := by
  unfold maxevents
  rw [BitVec.toInt_eq_toNat_cond]
  split
  · exact le_rfl
  · have := s.fdCount.toBitVec.isLt
    simp only [UInt32.toNat_toBitVec] at *
    omega

theorem processData_lt {i j : ℕ} (hj : j ∈ processData known i evList) :
    j < i + evList.length := by
  induction evList generalizing i with
  | nil => cases hj
  | cons fd evList ih =>
    rw [processData] at hj
    rw [List.length_cons]
    rcases List.mem_cons.mp hj with rfl | hj
    · omega
    · split at hj
      · have := ih hj
        omega
      · cases hj

theorem InBounds.waited (h : s.InBounds) (hlen : evList.length ≤ s.fdCount.toNat) :
    (s.waited evList).InBounds where
  fdCount := h.fdCount
  accessed := by
    intro i hi
    have hslots := h.fdCount
    rcases List.mem_append.mp hi with hi | hi
    · rcases List.mem_append.mp hi with hi | hi
      · exact h.accessed i hi
      · exact lt_of_lt_of_le (List.mem_range.mp hi) hslots
    · exact lt_of_lt_of_le (List.mem_range.mp hi) (hlen.trans hslots)
  maxEvents := by
    intro n hn
    rcases List.mem_append.mp hn with hn | hn
    · exact h.maxEvents n hn
    · obtain rfl := List.mem_singleton.mp hn
      exact (maxevents_le s).trans (Int.ofNat_le.mpr h.fdCount)

theorem InBounds.processed (h : s.InBounds) (hlen : evList.length ≤ s.fdCount.toNat) :
    (s.processed known evList).InBounds where
  fdCount := h.fdCount
  accessed := by
    intro i hi
    rcases List.mem_append.mp hi with hi | hi
    · exact h.accessed i hi
    · have hlt := processData_lt hi
      rw [Nat.zero_add] at hlt
      exact lt_of_lt_of_le hlt (hlen.trans h.fdCount)
  maxEvents := h.maxEvents

theorem InBounds.step (h : s.InBounds) (hcall : ¬ call.Registers)
    (hs : s.step known call = some s') : s'.InBounds := by
  cases call with
  | registerSocket retCode =>
    obtain rfl := Option.some.inj hs
    rw [registerSocket, if_pos (not_le.mp hcall)]
    exact h
  | waitForData evList =>
    simp only [EventBuffer.step, Option.ite_none_right_eq_some, Option.some.injEq] at hs
    obtain ⟨⟨-, hlen⟩, rfl⟩ := hs
    have hfits : evList.length ≤ s.fdCount.toNat :=
      Int.ofNat_le.mp (hlen.trans (maxevents_le s))
    exact (h.waited hfits).processed hfits
  | waitFails =>
    obtain rfl := Option.some.inj hs
    exact h.waited (Nat.zero_le _)

theorem slots_step (hs : s.step known call = some s') : s'.slots = s.slots := by
  cases call with
  | registerSocket retCode =>
    obtain rfl := Option.some.inj hs
    unfold registerSocket
    split <;> rfl
  | waitForData evList =>
    simp only [step, Option.ite_none_right_eq_some, Option.some.injEq] at hs
    obtain ⟨-, rfl⟩ := hs
    rfl
  | waitFails =>
    obtain rfl := Option.some.inj hs
    rfl

theorem not_inBounds_of_registers (hzero : s.slots = 0) (h : s.InBounds)
    (hcall : call.Registers) (hs : s.step known call = some s') : ¬ s'.InBounds := by
  cases call with
  | registerSocket retCode =>
    obtain rfl := Option.some.inj hs
    have hcount : s.fdCount.toNat = 0 := Nat.le_zero.mp (hzero ▸ h.fdCount)
    intro h'
    have hle := h'.fdCount
    rw [registerSocket, if_neg (not_lt.mpr hcall)] at hle
    simp only [UInt32.toNat_add, hcount, hzero] at hle
    exact absurd hle (by decide)
  | waitForData evList | waitFails => cases hcall

/-- Without slots, a wait that returns nothing overruns the buffer by its `memset`. -/
theorem overrun_waited (hzero : s.slots = 0) (h : ¬ s.Overrun) :
    (s.waited []).Overrun ↔ s.fdCount ≠ 0 := by
  have hnone : s.accessed = [] := by
    apply List.eq_nil_iff_forall_not_mem.mpr
    exact fun i hi => h ⟨i, hi, hzero ▸ Nat.zero_le i⟩
  have hcount : s.fdCount ≠ 0 ↔ 0 < s.fdCount.toNat := by
    rw [ne_eq, ← UInt32.toNat_inj]
    exact Nat.pos_iff_ne_zero.symm
  simp only [Overrun, waited, hnone, hzero, List.nil_append, List.length_nil, List.range_zero,
    List.append_nil, List.mem_range, Nat.zero_le, and_true, hcount]
  exact ⟨fun ⟨i, hi⟩ => by omega, fun hpos => ⟨0, hpos⟩⟩

def StaysInBounds (known : Fd → Bool) (s : EventBuffer) (calls : List EpollerCall) : Prop :=
  ∀ earlier t, earlier <+: calls → earlier.foldlM (step known) s = some t → t.InBounds

theorem StaysInBounds.tail (h : StaysInBounds known s (call :: calls))
    (hs : s.step known call = some s') : StaysInBounds known s' calls := by
  intro earlier t hprefix ht
  apply h (call :: earlier) t ((List.prefix_cons_inj call).mpr hprefix)
  rw [List.foldlM_cons, hs]
  exact ht

theorem StaysInBounds.head (h : StaysInBounds known s (call :: calls))
    (hs : s.step known call = some s') : s'.InBounds := by
  apply h [call] s' (List.prefix_append [call] calls)
  rw [List.foldlM_cons, hs]
  rfl

theorem StaysInBounds.cons (h : s.InBounds) (hs : s.step known call = some s')
    (hrest : StaysInBounds known s' calls) : StaysInBounds known s (call :: calls) := by
  intro earlier t hprefix ht
  cases earlier with
  | nil =>
    obtain rfl := Option.some.inj ht
    exact h
  | cons first earlier =>
    obtain ⟨rfl, hearlier⟩ := List.cons_prefix_cons.mp hprefix
    rw [List.foldlM_cons, hs] at ht
    exact hrest earlier t hearlier ht

theorem staysInBounds_iff (hzero : s.slots = 0) (h : s.InBounds)
    (hrun : calls.foldlM (step known) s = some s') :
    StaysInBounds known s calls ↔ ∀ call ∈ calls, ¬ call.Registers := by
  induction calls generalizing s with
  | nil =>
    refine iff_of_true ?_ nofun
    intro earlier t hprefix ht
    obtain rfl := List.prefix_nil.mp hprefix
    obtain rfl := Option.some.inj ht
    exact h
  | cons call calls ih =>
    rw [List.foldlM_cons] at hrun
    obtain ⟨s₁, hs, hrun⟩ := Option.bind_eq_some_iff.mp hrun
    have hzero₁ : s₁.slots = 0 := (slots_step hs).trans hzero
    rw [List.forall_mem_cons]
    constructor
    · intro hstays
      have hb := hstays.head hs
      refine ⟨fun hcall => not_inBounds_of_registers hzero h hcall hs hb, ?_⟩
      exact (ih hzero₁ hb hrun).mp (hstays.tail hs)
    · rintro ⟨hcall, hcalls⟩
      have hb := h.step hcall hs
      exact .cons h hs ((ih hzero₁ hb hrun).mpr hcalls)

/-- **Event buffer bounds**: in every run from the constructor, all states and all accesses
are within the allocation exactly when no `RegisterSocket` succeeds. -/
theorem event_buffer_bounds_iff (hrun : calls.foldlM (step known) new = some s) :
    StaysInBounds known new calls ↔ ∀ call ∈ calls, ¬ call.Registers :=
  staysInBounds_iff rfl inBounds_new hrun

/-- A registration that fails and a wait that does. -/
theorem event_buffer_bounds_refused :
    StaysInBounds (fun _ => true) new [.registerSocket (-1), .waitFails] := by
  refine (event_buffer_bounds_iff (s := new.waited []) rfl).mpr ?_
  intro call hcall
  rcases List.mem_pair.mp hcall with rfl | rfl
  · exact (by decide : ¬ (0 : ℤ) ≤ -1)
  · exact id

/-- One registration, and one event: the first slot is used, and there is none. -/
theorem event_buffer_overrun : ¬ ∀ known calls s, calls.foldlM (step known) new = some s →
    StaysInBounds known new calls := by
  intro hstated
  have hstays := hstated (fun _ => true) [.registerSocket 0, .waitForData [3]] _ rfl
  exact absurd ((hstays _ _ (List.prefix_refl _) rfl).accessed 0) (by decide)

/-- The buffer of an `Epoller` on which `WaitForData` has not been called. -/
def ofEpoller (e : Epoller) : EventBuffer := { new with fdCount := e.fdCount }

theorem registerSocket_refines {e e' : Epoller} {host : Host} {n : ℕ}
    (h : e.registerSocket host n = .ok e') :
    (ofEpoller e).step known (.registerSocket 0) = some (ofEpoller e') := by
  obtain ⟨-, rfl⟩ := Epoller.registerSocket_eq_ok.mp h
  simp [step, registerSocket, ofEpoller]

/-- Every accepted configuration with a receiver leaves a buffer that is too small. -/
theorem constructed_out_of_bounds {host : Host} {lib : Boost} {tree : PTree} {p : Proxy}
    (hinj : Function.Injective host.socket) (h : construct host lib tree = .ok p)
    (hsome : p.receivers ≠ []) (hfits : p.receivers.length < 2 ^ 32) :
    ¬ (ofEpoller p.epoller).InBounds := by
  intro hb
  have hle := hb.fdCount
  have hpos := List.length_pos_iff.mpr hsome
  simp only [ofEpoller, (registered_construct hinj h).fdCount, UInt32.toNat_ofNat'] at hle
  rw [Nat.mod_eq_of_lt hfits] at hle
  exact absurd (hpos.trans_le hle) (lt_irrefl 0)

end EventBuffer
end MddProxy
