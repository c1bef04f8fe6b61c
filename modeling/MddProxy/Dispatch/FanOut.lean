import MddProxy.Dispatch.ReceiveData
import Mathlib.Data.List.TakeWhile

/-!
# What the senders get from one call

The steps of a thread inside `ReceiveData` add up to `receiveData`. Its fan-out is exact
on payloads that fit the buffer, and one `sendto` that fails ends the call for every sender.
-/
namespace MddProxy

open Interleaving

namespace System

open ReceiveCall

variable {s s' : System} {w k : ℕ} {fd : Fd} {c c' : ReceiveCall} {pc pc' : RunPc}
  {fails : ℕ → ℕ → Bool} {d : Datagram} {ds : List Datagram}

/-- Only thread `k` of worker `w` moves, and its `sendto` calls fail as given. The datagram
that it is sending is the last one taken. -/
def Follows (fails : ℕ → ℕ → Bool) (w k : ℕ) (fd : Fd) (s : System) (a : Action) : Prop :=
  a = .thread w k ∧ (∀ count i f, s.pcAt w k = some (.sending fd count i) →
      s.receivers fd = some f → i < f.transmitted.length → fails (f.taken - 1) i = false) ∨
    a = .sendFails w k ∧ ∃ count i f, s.pcAt w k = some (.sending fd count i) ∧
      s.receivers fd = some f ∧ fails (f.taken - 1) i = true

/-- That thread is at `pc` in a call on `fd`. -/
structure Inside (s : System) (w k : ℕ) (fd : Fd) (c : ReceiveCall) (pc : RunPc) : Prop where
  fault : s.fault = none
  pc : s.pcAt w k = some pc
  feed : s.receivers fd = some c.feed

/-- How the machine stands after a part of the call: at `pc`, or gone with the exception. -/
def Left (s : System) (w k : ℕ) (fd : Fd) (r : ReceiveCall × Option Fault) (pc : RunPc) : Prop :=
  s.receivers fd = some r.1.feed ∧ s.fault = r.2 ∧ (r.2 = none → s.pcAt w k = some pc)

theorem Inside.left (hi : s.Inside w k fd c pc) : s.Left w k fd (c, none) pc :=
  ⟨hi.feed, hi.fault, fun _ => hi.pc⟩

theorem Left.inside {r : ReceiveCall × Option Fault} (hl : s.Left w k fd r pc)
    (hr : r.2 = none) : s.Inside w k fd r.1 pc :=
  ⟨hl.2.1.trans hr, hl.2.2 hr, hl.1⟩

/-- The thread has moved to `pc'` and left `feed` behind. -/
def leave (s : System) (w k : ℕ) (wk : Worker) (fd : Fd) (feed : Feed) (pc' : RunPc) : System :=
  { s.put w (wk.jump k pc') with receivers := Function.update s.receivers fd (some feed) }

theorem leave_same (hf : s.receivers fd = some c.feed) (wk : Worker) :
    s.leave w k wk fd c.feed pc' = s.put w (wk.jump k pc') := by
  rw [leave, ← hf, Function.update_eq_self]
  rfl

theorem Inside.move (hi : s.Inside w k fd c pc)
    (hsends : ∀ count i, pc = .sending fd count i → i < c.feed.transmitted.length →
      fails (c.feed.taken - 1) i = false)
    (hstep : ∀ wk, s.runStep w wk k pc = some (s.leave w k wk fd c'.feed pc')) :
    ∃ s', Reaches step (Follows fails w k fd) s s' ∧ s'.Inside w k fd c' pc' := by
  obtain ⟨wk, hw, hpc⟩ := pcAt_eq_some.mp hi.pc
  have hmove : s.step (.thread w k) = some (s.leave w k wk fd c'.feed pc') := by
    simp [step, hi.fault, threadStep, hw, hpc, hstep wk]
  have hfollows : Follows fails w k fd s (.thread w k) := by
    refine .inl ⟨rfl, fun count i f hsending hf hlt => ?_⟩
    obtain rfl := Option.some.inj (hi.pc.symm.trans hsending)
    obtain rfl := Option.some.inj (hi.feed.symm.trans hf)
    exact hsends count i rfl hlt
  refine ⟨_, .single hfollows hmove, hi.fault, ?_, Function.update_self ..⟩
  rw [pcAt_move hw hpc rfl (by rfl)]
  exact if_pos ⟨rfl, rfl⟩

theorem Inside.recvfrom_nil (fails : ℕ → ℕ → Bool)
    (hi : s.Inside w k fd c (.recvfrom fd c.sockLen)) (hq : c.feed.waiting = []) :
    ∃ s', Reaches step (Follows fails w k fd) s s' ∧
      s'.Inside w k fd c.received .countPending := by
  apply hi.move (by simp)
  intro wk
  simp [runStep, leave, hi.feed, feed_recvfrom_of_nil hq, feed_received_of_nil hq]

theorem Inside.recvfrom_refused (fails : ℕ → ℕ → Bool)
    (hi : s.Inside w k fd c (.recvfrom fd c.sockLen)) (hq : c.feed.waiting = d :: ds)
    (hlen : c.refused = true) : ∃ s', Reaches step (Follows fails w k fd) s s' ∧
      s'.Inside w k fd c.received .countPending := by
  apply hi.move (by simp)
  intro wk
  simp [runStep, leave, hi.feed, feed_recvfrom_of_refused hq hlen, feed_received_of_cons hq]

theorem Inside.recvfrom_empty (fails : ℕ → ℕ → Bool)
    (hi : s.Inside w k fd c (.recvfrom fd c.sockLen)) (hq : c.feed.waiting = [] :: ds)
    (hlen : c.refused = false) : ∃ s', Reaches step (Follows fails w k fd) s s' ∧
      s'.Inside w k fd c.received .countPending := by
  apply hi.move (by simp)
  intro wk
  simp [runStep, leave, hi.feed, feed_recvfrom_of_cons hq hlen, feed_received_of_cons hq]

theorem Inside.recvfrom_cons (fails : ℕ → ℕ → Bool)
    (hi : s.Inside w k fd c (.recvfrom fd c.sockLen)) (hq : c.feed.waiting = d :: ds)
    (hlen : c.refused = false) (hd : d ≠ []) :
    ∃ s', Reaches step (Follows fails w k fd) s s' ∧
      s'.Inside w k fd c.received (.sending fd c.count 0) := by
  apply hi.move (by simp)
  intro wk
  obtain ⟨count, hcount⟩ := Nat.exists_eq_succ_of_ne_zero
    (Nat.ne_of_gt (count_of_nonempty hq hlen hd).1)
  have hcount' := count_of_cons hq hlen
  rw [hcount] at hcount'
  simp [runStep, leave, hi.feed, feed_recvfrom_of_cons hq hlen, feed_received_of_cons hq,
    ← hcount', hcount]

theorem Inside.sent {count i : ℕ} (hi : s.Inside w k fd c (.sending fd count i))
    (hlt : i < c.feed.transmitted.length) (hok : fails (c.feed.taken - 1) i = false) :
    ∃ s', Reaches step (Follows fails w k fd) s s' ∧
      s'.Inside w k fd (c.sent i count) (.sending fd count (i + 1)) := by
  apply hi.move
  · rintro _ _ ⟨⟩ _
    exact hok
  · intro wk
    simp [runStep, leave, hi.feed, hlt, ReceiveCall.sent]

theorem Inside.fanned (fails : ℕ → ℕ → Bool) {count i : ℕ}
    (hi : s.Inside w k fd c (.sending fd count i)) (hle : c.feed.transmitted.length ≤ i) :
    ∃ s', Reaches step (Follows fails w k fd) s s' ∧
      s'.Inside w k fd c (.recvfrom fd SOCKADDR_IN_SIZE) := by
  apply hi.move
  · rintro _ _ ⟨⟩ hlt
    omega
  · intro wk
    rw [leave_same hi.feed]
    simp [runStep, hi.feed, Nat.not_lt_of_le hle]

theorem Inside.failed {count i : ℕ} (hi : s.Inside w k fd c (.sending fd count i))
    (hlt : i < c.feed.transmitted.length) (hfail : fails (c.feed.taken - 1) i = true)
    (pc' : RunPc) : ∃ s', Reaches step (Follows fails w k fd) s s' ∧
      s'.Left w k fd (c, some .sendFailed) pc' := by
  obtain ⟨wk, hw, hpc⟩ := pcAt_eq_some.mp hi.pc
  have hstep : s.step (.sendFails w k) = some { s with fault := some .sendFailed } := by
    simp [step, hi.fault, sendFailsStep, hw, hpc, hi.feed, hlt]
  have hfollows : Follows fails w k fd s (.sendFails w k) :=
    .inr ⟨rfl, count, i, c.feed, hi.pc, hi.feed, hfail⟩
  exact ⟨_, .single hfollows hstep, hi.feed, rfl, by simp⟩

/-- The fan-out of the datagram taken last, by induction on the senders left. -/
theorem sendAll_refines (fails : ℕ → ℕ → Bool) {count n i : ℕ}
    (hi : s.Inside w k fd c (.sending fd count i))
    (hn : i + n = c.feed.transmitted.length) :
    ∃ s', Reaches step (Follows fails w k fd) s s' ∧
      s'.Left w k fd (sendAll (fails (c.feed.taken - 1)) count n i c)
        (.recvfrom fd SOCKADDR_IN_SIZE) := by
  induction n generalizing s c i with
  | zero =>
    obtain ⟨s', hs', hi'⟩ := hi.fanned fails (Nat.le_of_eq hn.symm)
    exact ⟨s', hs', hi'.left⟩
  | succ n ih =>
    have hlt : i < c.feed.transmitted.length := by omega
    simp only [sendAll]
    split
    case isTrue hfail => exact hi.failed hlt hfail _
    case isFalse hok =>
      obtain ⟨s', hs', hi'⟩ := hi.sent hlt ((Bool.not_eq_true _).mp hok)
      have hn' : i + 1 + n = (c.sent i count).feed.transmitted.length := by
        simp only [ReceiveCall.sent, Feed.sendData, List.length_modify]
        omega
      obtain ⟨t, ht, hl⟩ := ih hi' hn'
      exact ⟨t, hs'.trans ht, hl⟩

theorem fanOut_refines (fails : ℕ → ℕ → Bool) (hi : s.Inside w k fd c (.recvfrom fd c.sockLen))
    (hq : c.feed.waiting = d :: ds) (hlen : c.refused = false) (hd : d ≠ []) :
    ∃ s', Reaches step (Follows fails w k fd) s s' ∧
      s'.Left w k fd (fanOut fails c) (.recvfrom fd (fanOut fails c).1.sockLen) := by
  obtain ⟨s', hs', hi'⟩ := hi.recvfrom_cons fails hq hlen hd
  obtain ⟨t, ht, hl⟩ := sendAll_refines fails hi' (Nat.zero_add _)
  have htaken : c.received.feed.taken - 1 = c.feed.taken := by
    rw [feed_received_of_cons hq]
    rfl
  rw [htaken] at hl
  rw [fanOut_sockLen hq hlen]
  exact ⟨t, hs'.trans ht, hl⟩

/-- The steps of the thread inside `ReceiveData` add up to `receiveData`: it gets to
`OnWorkComplete`, or the exception that leaves the call leaves `Run`. -/
theorem receiveData_refines (hi : s.Inside w k fd c (.recvfrom fd c.sockLen)) :
    ∃ s', Reaches step (Follows fails w k fd) s s' ∧
      s'.Left w k fd (receiveData fails c) .countPending := by
  induction c using receiveData_rule fails generalizing s with
  | nil c hq hcall =>
    obtain ⟨s', hs', hi'⟩ := hi.recvfrom_nil fails hq
    rw [hcall]
    exact ⟨s', hs', hi'.left⟩
  | refused c d ds hq hlen hcall =>
    obtain ⟨s', hs', hi'⟩ := hi.recvfrom_refused fails hq hlen
    rw [hcall]
    exact ⟨s', hs', hi'.left⟩
  | empty c ds hq hlen hcall =>
    obtain ⟨s', hs', hi'⟩ := hi.recvfrom_empty fails hq hlen
    rw [hcall]
    exact ⟨s', hs', hi'.left⟩
  | fault c d ds hq hlen hd hfault hcall =>
    obtain ⟨s', hs', hl⟩ := fanOut_refines fails hi hq hlen hd
    rw [hcall]
    exact ⟨s', hs', hl.1, hl.2.1, fun h => absurd h hfault⟩
  | sent c d ds hq hlen hd hfault hcall ih =>
    obtain ⟨s', hs', hl⟩ := fanOut_refines fails hi hq hlen hd
    obtain ⟨t, ht, hl'⟩ := ih (hl.inside hfault)
    rw [hcall]
    exact ⟨t, hs'.trans ht, hl'⟩

end System

namespace ReceiveCall

variable {c : ReceiveCall} {fails : ℕ → ℕ → Bool} {d : Datagram} {ds : List Datagram}

/-- The non-empty datagrams among those read, as `recvfrom` stored them. -/
def read (c : ReceiveCall) : List Datagram :=
  ((c.feed.arrived.take c.feed.taken).filter fun d => !d.isEmpty).map (List.take MAX_PACKET_SIZE)

/-- No sender transmits anything else than what was read, or in another order. -/
def Traced (c : ReceiveCall) : Prop :=
  ∀ (j : ℕ) (t : List Datagram), c.feed.transmitted[j]? = some t → t.Sublist c.read

theorem sendAll_extends {sendtoFails : ℕ → Bool} {count n i j : ℕ} :
    (sendAll sendtoFails count n i c).1.feed.transmitted[j]? = c.feed.transmitted[j]? ∨
      i ≤ j ∧ (sendAll sendtoFails count n i c).1.feed.transmitted[j]? =
        (c.feed.transmitted[j]?).map (· ++ [c.feed.buff.take count]) := by
  induction n generalizing i c with
  | zero => exact .inl rfl
  | succ n ih =>
    simp only [sendAll]
    split
    · exact .inl rfl
    · have hsent : (c.sent i count).feed.transmitted[j]? = (c.feed.transmitted[j]?).map
          fun t => if i = j then t ++ [c.feed.buff.take count] else t := by
        simp [ReceiveCall.sent, Feed.sendData, List.getElem?_modify]
      rcases ih (c := c.sent i count) (i := i + 1) with hsame | ⟨hij, hmore⟩
      · rw [hsame, hsent]
        by_cases hij : i = j
        · exact .inr ⟨Nat.le_of_eq hij, by simp [hij]⟩
        · exact .inl (by simp [hij])
      · have hne : i ≠ j := by omega
        refine .inr ⟨by omega, ?_⟩
        rw [hmore, hsent]
        simp [hne, ReceiveCall.sent, Feed.sendData]

theorem read_received_of_cons (hq : c.feed.waiting = d :: ds) (hd : d ≠ []) :
    c.received.read = c.read ++ [d.take MAX_PACKET_SIZE] := by
  simp [read, feed_received_of_cons hq, Feed.dequeue, List.take_add_one, arrived_of_cons hq, hd]

theorem traced_fanOut (fails : ℕ → ℕ → Bool) (ht : c.Traced) (hq : c.feed.waiting = d :: ds)
    (hlen : c.refused = false) (hd : d ≠ []) : (fanOut fails c).1.Traced := by
  have hread : (fanOut fails c).1.read = c.read ++ [d.take MAX_PACKET_SIZE] := by
    rw [← read_received_of_cons hq hd, read, fanOut, sendAll_arrived, sendAll_taken]
    rfl
  have hbuff := buff_received_of_cons hq hlen
  have htransmitted := transmitted_received_of_cons hq
  intro j t hj
  rw [hread]
  simp only [fanOut] at hj
  rcases sendAll_extends (c := c.received) (j := j) with hsame | ⟨-, hmore⟩
  · rw [hsame, htransmitted] at hj
    exact (ht j t hj).trans (List.sublist_append_left _ _)
  · rw [hmore, htransmitted, Option.map_eq_some_iff, hbuff] at hj
    obtain ⟨t₀, ht₀, rfl⟩ := hj
    exact (ht j t₀ ht₀).append (List.Sublist.refl _)

theorem traced_received (ht : c.Traced) : c.received.Traced := by
  intro j t hj
  cases hq : c.feed.waiting with
  | nil =>
    rw [feed_received_of_nil hq] at hj
    simpa only [read, feed_received_of_nil hq] using ht j t hj
  | cons d ds =>
    have hle := List.take_sublist_take_left (l := c.feed.arrived) (Nat.le_succ c.feed.taken)
    rw [transmitted_received_of_cons hq] at hj
    refine (ht j t hj).trans ?_
    simp only [read, feed_received_of_cons hq]
    exact (hle.filter _).map _

theorem receiveData_traced (ht : c.Traced) : (receiveData fails c).1.Traced := by
  induction c using receiveData_rule fails with
  | nil c hq hcall =>
    rw [hcall]
    exact traced_received ht
  | refused c d ds hq hlen hcall =>
    rw [hcall]
    exact traced_received ht
  | empty c ds hq hlen hcall =>
    rw [hcall]
    exact traced_received ht
  | fault c d ds hq hlen hd hfault hcall =>
    rw [hcall]
    exact traced_fanOut fails ht hq hlen hd
  | sent c d ds hq hlen hd hfault hcall ih =>
    rw [hcall]
    exact ih (traced_fanOut fails ht hq hlen hd)

theorem arrived_received : c.received.feed.arrived = c.feed.arrived := by
  cases hq : c.feed.waiting with
  | nil => rw [feed_received_of_nil hq]
  | cons d ds =>
    rw [feed_received_of_cons hq]
    rfl

theorem receiveData_arrived : (receiveData fails c).1.feed.arrived = c.feed.arrived := by
  induction c using receiveData_rule fails with
  | nil c hq hcall => rw [hcall, arrived_received]
  | refused c d ds hq hlen hcall => rw [hcall, arrived_received]
  | empty c ds hq hlen hcall => rw [hcall, arrived_received]
  | fault c d ds hq hlen hd hfault hcall => rw [hcall, fanOut_arrived hq]
  | sent c d ds hq hlen hd hfault hcall ih => rw [hcall, ih, fanOut_arrived hq]

/-- What sender `i` transmits of the waiting datagrams when each goes by its own `sendto`. -/
def accepted (fails : ℕ → ℕ → Bool) (c : ReceiveCall) (i : ℕ) : List Datagram :=
  ((c.feed.waiting.zipIdx c.feed.taken).filter fun d => !fails d.2 i).map
    fun d => d.1.take MAX_PACKET_SIZE

/-- The senders do not affect one another, nor the worker, and each waiting datagram is the
result of a `recvfrom` before the one that finds none. -/
structure Isolated (fails : ℕ → ℕ → Bool) (c : ReceiveCall) : Prop where
  noException : (receiveData fails c).2 = none
  allRead : (receiveData fails c).1.feed.waiting = []
  asked : (receiveData fails c).1.recvs = c.recvs + c.feed.waiting.length + 1
  transmitted : ∀ i t, c.feed.transmitted[i]? = some t →
    (receiveData fails c).1.feed.transmitted[i]? = some (t ++ c.accepted fails i)

theorem served_eq_waiting (hne : ∀ d ∈ c.feed.waiting, d ≠ [])
    (hlen : c.refused = true → c.feed.waiting = []) : c.served = c.feed.waiting := by
  cases hr : c.refused with
  | true => rw [served_of_refused hr, hlen hr]
  | false =>
    rw [served_of_accepted hr]
    apply List.takeWhile_eq_self_iff.mpr
    intro d hd
    simpa using hne d hd

theorem fanOut_recvs : (fanOut fails c).1.recvs = c.recvs + 1 :=
  sendAll_frame (f := recvs) fun _ _ => rfl

theorem receiveData_asked (hne : ∀ d ∈ c.feed.waiting, d ≠ [])
    (hlen : c.refused = true → c.feed.waiting = []) (hnone : (receiveData fails c).2 = none) :
    (receiveData fails c).1.recvs = c.recvs + c.feed.waiting.length + 1 := by
  induction c using receiveData_rule fails with
  | nil c hq hcall =>
    rw [hcall, hq]
    rfl
  | refused c d ds hq hr hcall =>
    rw [hlen hr] at hq
    cases hq
  | empty c ds hq hr hcall => exact absurd rfl (hne [] (by simp [hq]))
  | fault c d ds hq hr hd hfault hcall =>
    rw [hcall] at hnone
    exact absurd hnone hfault
  | sent c d ds hq hr hd hfault hcall ih =>
    rw [hcall] at hnone
    rw [waiting_fanOut hq] at ih
    have hrest := ih (fun d hd => hne d (by simp [hq, hd]))
      (by simp [fanOut_refused hq hr]) hnone
    rw [hcall, hrest, fanOut_recvs, hq, List.length_cons]
    omega

theorem waiting_length (c : ReceiveCall) :
    c.feed.waiting.length = c.feed.arrived.length - c.feed.taken := List.length_drop

theorem accepted_eq (hfails : NoFailure fails c) (hserved : c.served = c.feed.waiting) {i : ℕ}
    (hi : i < c.feed.transmitted.length) :
    c.accepted fails i = c.served.map (List.take MAX_PACKET_SIZE) := by
  have hall : ∀ d ∈ c.feed.waiting.zipIdx c.feed.taken, (!fails d.2 i) = true := by
    rintro ⟨d, k⟩ hd
    have hk := List.mem_zipIdx hd
    simp only [hfails k i hk.1 (by rw [hserved]; exact hk.2.1) hi, Bool.not_false]
  calc
    c.accepted fails i
        = (c.feed.waiting.zipIdx c.feed.taken).map (List.take MAX_PACKET_SIZE ∘ Prod.fst) := by
      rw [accepted, List.filter_eq_self.mpr hall]
      rfl
    _ = c.served.map (List.take MAX_PACKET_SIZE) := by
      rw [← List.map_map, List.zipIdx_map_fst, hserved]

theorem isolated_of_noFailure (hne : ∀ d ∈ c.feed.waiting, d ≠ [])
    (hlen : c.refused = true → c.feed.waiting = []) (hfails : NoFailure fails c) :
    c.Isolated fails := by
  have hserved := served_eq_waiting hne hlen
  have hnone := receiveData_fault_eq_none.mpr hfails
  obtain ⟨harrived, htaken, htransmitted⟩ := receiveData_returned hnone
  refine ⟨hnone, ?_, receiveData_asked hne hlen hnone, ?_⟩
  · have hcount := waiting_length c
    apply List.drop_eq_nil_iff.mpr
    rw [harrived, htaken, hserved]
    omega
  · intro i t ht
    have hi := (List.getElem?_eq_some_iff.mp ht).1
    rw [htransmitted, List.getElem?_map, ht, accepted_eq hfails hserved hi]
    rfl

theorem Isolated.notRefused (h : c.Isolated fails) (hr : c.refused = true) :
    c.feed.waiting = [] := by
  cases hq : c.feed.waiting with
  | nil => rfl
  | cons d ds =>
    have hasked := h.asked
    rw [receiveData_of_error (result_of_refused hq hr), hq, List.length_cons] at hasked
    simp only [received] at hasked
    omega

/-- **One failing sender**: a call on non-empty datagrams keeps its senders apart exactly
when no `sendto` on a waiting datagram fails, and a length that is refused meets none. -/
theorem failure_isolated_iff (fails : ℕ → ℕ → Bool) (c : ReceiveCall)
    (hne : ∀ d ∈ c.feed.waiting, d ≠ []) :
    c.Isolated fails ↔ (lengthRefused c.sockLen = true → c.feed.waiting = []) ∧
      ∀ k i, c.feed.taken ≤ k → k < c.feed.arrived.length → i < c.feed.transmitted.length →
        fails k i = false := by
  have hcount := waiting_length c
  constructor
  · intro h
    refine ⟨h.notRefused, fun k i hk hlt hi => ?_⟩
    apply receiveData_fault_eq_none.mp h.noException k i hk _ hi
    rw [served_eq_waiting hne h.notRefused]
    omega
  · rintro ⟨hlen, h⟩
    apply isolated_of_noFailure hne hlen
    intro k i hk hlt hi
    rw [served_eq_waiting hne hlen] at hlt
    exact h k i hk (by omega) hi

def firstCall (senders : ℕ) (d : Datagram) : ReceiveCall where
  feed := (Feed.fresh senders []).arrive d
  sockLen := 0
  receiverBytes := 0
  senderBytes := fun _ => 0
  recvs := 0

theorem failure_isolated_two_senders : (∀ d ∈ (firstCall 2 [1]).feed.waiting, d ≠ []) ∧
    (firstCall 2 [1]).Isolated fun _ _ => false :=
  ⟨by decide, (failure_isolated_iff _ (firstCall 2 [1]) (by decide)).mpr
    ⟨by decide, fun _ _ _ _ _ => rfl⟩⟩

/-- The first sender would block: the exception leaves the call, and the second sender gets
nothing. -/
theorem failure_not_isolated : ¬ ∀ (fails : ℕ → ℕ → Bool) (c : ReceiveCall),
    (∀ d ∈ c.feed.waiting, d ≠ []) → c.Isolated fails := by
  intro hstated
  have hone := hstated (fun _ i => i == 0) (firstCall 2 [1]) (by decide)
  have hfirst := receiveData_fault_eq_none.mp hone.noException 0 0 (Nat.le_refl 0) (by decide)
    (by decide)
  simp at hfirst

def removed (c c' : ReceiveCall) : List Datagram :=
  c.feed.waiting.take (c'.feed.taken - c.feed.taken)

/-- Every sender transmits the complete non-empty datagrams that the call removes. -/
def ByteExact (c : ReceiveCall) : Prop :=
  ∀ (i : ℕ) (t : List Datagram), c.feed.transmitted[i]? = some t →
    (receiveData (fun _ _ => false) c).1.feed.transmitted[i]? =
      some (t ++ (c.removed (receiveData (fun _ _ => false) c).1).filter fun d => !d.isEmpty)

theorem filter_take_takeWhile {α : Type*} (p : α → Bool) (l : List α) :
    (l.take ((l.takeWhile p).length + if (l.takeWhile p).length < l.length then 1 else 0)).filter p
      = l.takeWhile p := by
  induction l with
  | nil => rfl
  | cons x xs ih =>
    by_cases hx : p x = true
    · rw [List.takeWhile_cons_of_pos hx]
      simp only [List.length_cons, Nat.succ_lt_succ_iff, Nat.succ_add, List.take_succ_cons,
        List.filter_cons_of_pos hx]
      rw [ih]
    · simp [hx]

/-- The senders have been handed the non-empty ones, but for one taken with a refused
length. -/
theorem Returned.removed_nonempty {c' : ReceiveCall} (h : c.Returned c')
    (hlen : c.refused = false) : ((c.removed c').filter fun d => !d.isEmpty) = c.served := by
  rw [removed, h.taken, Nat.add_assoc, Nat.add_sub_cancel_left, served_of_accepted hlen]
  exact filter_take_takeWhile _ _

theorem Returned.removed_refused {c' : ReceiveCall} (h : c.Returned c')
    (hlen : c.refused = true) :
    ((c.removed c').filter fun d => !d.isEmpty) =
      (c.feed.waiting.take 1).filter fun d => !d.isEmpty := by
  rw [removed, h.taken, served_of_refused hlen]
  cases c.feed.waiting <;> simp

theorem map_take_eq_self {l : List Datagram} :
    l.map (List.take MAX_PACKET_SIZE) = l ↔ ∀ d ∈ l, d.length ≤ MAX_PACKET_SIZE := by
  nth_rewrite 2 [← List.map_id l]
  simp only [List.map_inj_left, id, List.take_eq_self_iff]

theorem returned_allSent (c : ReceiveCall) :
    c.Returned (receiveData (fun _ _ => false) c).1 :=
  receiveData_returned (receiveData_fault_eq_none.mpr fun _ _ _ _ _ => rfl)

theorem byteExact_iff : c.ByteExact ↔ c.feed.transmitted = [] ∨
    c.served.map (List.take MAX_PACKET_SIZE) =
      (c.removed (receiveData (fun _ _ => false) c).1).filter fun d => !d.isEmpty := by
  rw [ByteExact, (returned_allSent c).transmitted]
  constructor
  · intro h
    cases ht : c.feed.transmitted with
    | nil => exact .inl rfl
    | cons t ts =>
      have hfirst := h 0 t (by simp [ht])
      simpa [ht] using hfirst
  · rintro (hnone | hexact) i t ht
    · simp [hnone] at ht
    · rw [List.getElem?_map, ht, hexact]
      rfl

theorem filter_take_one_eq_nil {l : List Datagram} :
    ((l.take 1).filter fun d => !d.isEmpty) = [] ↔ l.takeWhile (fun d => !d.isEmpty) = [] := by
  cases l with
  | nil => simp
  | cons d ds => by_cases hd : d.isEmpty = true <;> simp [hd]

theorem served_fresh {senders : ℕ} {junk : List UInt8} (hlen : c.refused = false)
    (hfeed : c.feed = (Feed.fresh senders junk).arrive d) (hd : d ≠ []) : c.served = [d] := by
  simp [served_of_accepted hlen, Feed.waiting, hfeed, Feed.arrive, Feed.fresh, hd]

theorem transmitted_fresh {senders : ℕ} {junk : List UInt8} (hlen : c.refused = false)
    (hfeed : c.feed = (Feed.fresh senders junk).arrive d) (hd : d ≠ []) :
    (receiveData (fun _ _ => false) c).1.feed.transmitted =
      List.replicate senders [d.take MAX_PACKET_SIZE] := by
  rw [(returned_allSent c).transmitted, served_fresh hlen hfeed hd, hfeed]
  simp [Feed.arrive, Feed.fresh]

/-- **Byte-exact fan-out**: a call with no failing `sendto` transmits complete payloads
exactly when it has no sender, or every datagram before the first empty one fits the
buffer, and there is none of them when the length that the call finds is refused. -/
theorem fan_out_exact_iff (c : ReceiveCall) : c.ByteExact ↔ c.feed.transmitted = [] ∨
    ∀ d ∈ c.feed.waiting.takeWhile (fun d => !d.isEmpty),
      lengthRefused c.sockLen = false ∧ d.length ≤ MAX_PACKET_SIZE := by
  rw [byteExact_iff]
  apply or_congr_right
  cases hlen : c.refused with
  | true =>
    have hr : lengthRefused c.sockLen = true := hlen
    rw [(returned_allSent c).removed_refused hlen, served_of_refused hlen, List.map_nil, eq_comm,
      filter_take_one_eq_nil, List.eq_nil_iff_forall_not_mem]
    simp [hr]
  | false =>
    have hr : lengthRefused c.sockLen = false := hlen
    rw [(returned_allSent c).removed_nonempty hlen, map_take_eq_self, served_of_accepted hlen]
    simp [hr]

/-- A datagram of 1025 bytes is transmitted without its last byte. -/
theorem fan_out_not_exact : ¬ ∀ c : ReceiveCall, c.ByteExact := by
  intro hstated
  have hlen : (List.replicate 1025 0 : Datagram).length = 1025 := List.length_replicate
  rcases byteExact_iff.mp (hstated (firstCall 1 (List.replicate 1025 0))) with hnone | hexact
  · exact absurd hnone (List.cons_ne_nil _ _)
  · rw [(returned_allSent _).removed_nonempty rfl,
      served_fresh rfl rfl (List.length_pos_iff.mp (by omega))] at hexact
    have hlong := map_take_eq_self.mp hexact _ (List.mem_singleton_self _)
    simp only [hlen, MAX_PACKET_SIZE] at hlong
    omega

end ReceiveCall
end MddProxy
