import MddProxy.Dispatch.Threads

/-!
# One call of `ReceiveData`

`System` takes a `ReceiveData` call apart into the steps of a thread. Here the call is a
function of the queue it finds and of the `sendto` calls that fail, with the collectors of
the receiver and of its senders.
-/
namespace MddProxy

/-- The conversion of a signed result to `size_t`. -/
def sizeT (result : ℤ) : ℕ := (result % 2 ^ 64).toNat

def Feed.waiting (f : Feed) : List Datagram := f.arrived.drop f.taken

/-- A receiver inside `ReceiveData`, with the length that the call finds in `sockLen`. The two
kinds of `Bytes` are `intvlBytesTrns` of its collector and of that of sender number `i`;
`recvs` counts the calls of `recvfrom`. -/
structure ReceiveCall where
  feed : Feed
  sockLen : UInt32
  receiverBytes : UInt32
  senderBytes : ℕ → UInt32
  recvs : ℕ

namespace ReceiveCall

/-- `ReceiveData` is entered: its `sockLen` is what the stack holds there. -/
def called (c : ReceiveCall) (sockLen : UInt32) : ReceiveCall := { c with sockLen := sockLen }

/-- What the next `recvfrom` returns, with the error behind a `-1`. -/
def result (c : ReceiveCall) : Except RecvError ℕ := (c.feed.recvfrom c.sockLen).1

def count (c : ReceiveCall) : ℕ :=
  sizeT (match c.result with
    | .ok length => length
    | .error _ => -1)

/-- After `recvfrom` and `statsCollector->ReportBytes(count)`. -/
def received (c : ReceiveCall) : ReceiveCall :=
  { c with
    feed := (c.feed.recvfrom c.sockLen).2
    sockLen := if c.result.isOk then SOCKADDR_IN_SIZE else c.sockLen
    receiverBytes := c.receiverBytes + UInt32.ofNat c.count
    recvs := c.recvs + 1 }

/-- After a `SendData(buff, count)` on sender number `i` whose `sendto` succeeds. -/
def sent (c : ReceiveCall) (i count : ℕ) : ReceiveCall :=
  { c with
    feed := c.feed.sendData i count
    senderBytes := Function.update c.senderBytes i (c.senderBytes i + UInt32.ofNat count) }

/-- The loop over the sender list with `n` senders left, from number `i` on. The first
`sendto` that fails throws. -/
def sendAll (sendtoFails : ℕ → Bool) (count : ℕ) :
    ℕ → ℕ → ReceiveCall → ReceiveCall × Option Fault
  | 0, _, c => (c, none)
  | n + 1, i, c =>
    if sendtoFails i then (c, some .sendFailed)
    else sendAll sendtoFails count n (i + 1) (c.sent i count)

variable {c : ReceiveCall} {d : Datagram} {ds : List Datagram} {sendtoFails : ℕ → Bool}
  {count n i : ℕ}

/-- The kernel does not take the length that `recvfrom` is about to be given. -/
def refused (c : ReceiveCall) : Bool := lengthRefused c.sockLen

theorem feed_recvfrom_of_nil (hq : c.feed.waiting = []) :
    c.feed.recvfrom c.sockLen = (.error .wouldBlock, c.feed) := by
  have hlen : c.feed.arrived.length ≤ c.feed.taken := List.drop_eq_nil_iff.mp hq
  simp [Feed.recvfrom, hlen]

theorem arrived_of_cons (hq : c.feed.waiting = d :: ds) :
    c.feed.arrived[c.feed.taken]? = some d := by
  rw [← List.head?_drop]
  exact congrArg List.head? hq

theorem feed_recvfrom_of_refused (hq : c.feed.waiting = d :: ds) (hlen : c.refused = true) :
    c.feed.recvfrom c.sockLen = (.error .invalid, c.feed.dequeue d) := by
  have hrefused : lengthRefused c.sockLen = true := hlen
  simp [Feed.recvfrom, arrived_of_cons hq, hrefused]

theorem feed_recvfrom_of_cons (hq : c.feed.waiting = d :: ds) (hlen : c.refused = false) :
    c.feed.recvfrom c.sockLen = (.ok (min d.length MAX_PACKET_SIZE), c.feed.dequeue d) := by
  have hrefused : lengthRefused c.sockLen = false := hlen
  simp [Feed.recvfrom, arrived_of_cons hq, hrefused]

theorem result_of_nil (hq : c.feed.waiting = []) : c.result = .error .wouldBlock := by
  rw [result, feed_recvfrom_of_nil hq]

theorem result_of_refused (hq : c.feed.waiting = d :: ds) (hlen : c.refused = true) :
    c.result = .error .invalid := by
  rw [result, feed_recvfrom_of_refused hq hlen]

theorem result_of_cons (hq : c.feed.waiting = d :: ds) (hlen : c.refused = false) :
    c.result = .ok (min d.length MAX_PACKET_SIZE) := by
  rw [result, feed_recvfrom_of_cons hq hlen]

theorem count_of_error {e : RecvError} (hr : c.result = .error e) : c.count = 2 ^ 64 - 1 := by
  simp [count, hr, sizeT]

theorem count_of_cons (hq : c.feed.waiting = d :: ds) (hlen : c.refused = false) :
    c.count = min d.length MAX_PACKET_SIZE := by
  have hle : min d.length MAX_PACKET_SIZE ≤ MAX_PACKET_SIZE := Nat.min_le_right _ _
  simp only [count, result_of_cons hq hlen, sizeT]
  simp only [MAX_PACKET_SIZE] at *
  omega

theorem count_gt_of_error {e : RecvError} (hr : c.result = .error e) :
    MAX_PACKET_SIZE < c.count := by
  rw [count_of_error hr]
  decide

theorem feed_received_of_nil (hq : c.feed.waiting = []) : c.received.feed = c.feed := by
  rw [received, feed_recvfrom_of_nil hq]

theorem feed_received_of_cons (hq : c.feed.waiting = d :: ds) :
    c.received.feed = c.feed.dequeue d := by
  cases hlen : c.refused with
  | true => rw [received, feed_recvfrom_of_refused hq hlen]
  | false => rw [received, feed_recvfrom_of_cons hq hlen]

theorem waiting_received_of_cons (hq : c.feed.waiting = d :: ds) :
    c.received.feed.waiting = ds := by
  rw [feed_received_of_cons hq]
  simp only [Feed.waiting, Feed.dequeue] at *
  rw [← List.drop_drop, hq]
  rfl

theorem sockLen_received_of_cons (hq : c.feed.waiting = d :: ds) (hlen : c.refused = false) :
    c.received.sockLen = SOCKADDR_IN_SIZE := by
  rw [received, result_of_cons hq hlen]
  rfl

theorem buff_received_of_cons (hq : c.feed.waiting = d :: ds) (hlen : c.refused = false) :
    c.received.feed.buff.take c.count = d.take MAX_PACKET_SIZE := by
  rw [feed_received_of_cons hq, count_of_cons hq hlen, Nat.min_comm, ← List.length_take]
  exact List.take_left

theorem sendAll_frame {β : Type*} {f : ReceiveCall → β}
    (hsent : ∀ c i, f (sent c i count) = f c) :
    f (sendAll sendtoFails count n i c).1 = f c := by
  induction n generalizing i c with
  | zero => rfl
  | succ n ih =>
    simp only [sendAll]
    split
    · rfl
    · exact ih.trans (hsent c i)

theorem sendAll_arrived :
    (sendAll sendtoFails count n i c).1.feed.arrived = c.feed.arrived :=
  sendAll_frame (f := fun c => c.feed.arrived) fun _ _ => rfl

theorem sendAll_taken : (sendAll sendtoFails count n i c).1.feed.taken = c.feed.taken :=
  sendAll_frame (f := fun c => c.feed.taken) fun _ _ => rfl

theorem sendAll_waiting : (sendAll sendtoFails count n i c).1.feed.waiting = c.feed.waiting := by
  rw [Feed.waiting, sendAll_arrived, sendAll_taken, Feed.waiting]

theorem sendAll_fault_eq_none : (sendAll sendtoFails count n i c).2 = none ↔
    ∀ j, i ≤ j → j < i + n → sendtoFails j = false := by
  induction n generalizing i c with
  | zero =>
    simp only [sendAll, true_iff]
    intro j hij hj
    omega
  | succ n ih =>
    simp only [sendAll]
    split
    case isTrue hfail =>
      simp only [reduceCtorEq, false_iff]
      intro hall
      have := hall i (Nat.le_refl i) (by omega)
      simp [hfail] at this
    case isFalse hok =>
      rw [ih]
      constructor
      · intro hall j hij hj
        by_cases hi : j = i
        · rw [hi]
          exact (Bool.not_eq_true _).mp hok
        · exact hall j (by omega) (by omega)
      · intro hall j hij hj
        exact hall j (by omega) (by omega)

theorem sendAll_transmitted (h : (sendAll sendtoFails count n i c).2 = none) (j : ℕ) :
    (sendAll sendtoFails count n i c).1.feed.transmitted[j]? =
      (c.feed.transmitted[j]?).map fun t =>
        if i ≤ j ∧ j < i + n then t ++ [c.feed.buff.take count] else t := by
  induction n generalizing i c with
  | zero =>
    have hnot : ¬ (i ≤ j ∧ j < i + 0) := by omega
    simp only [if_neg hnot, Option.map_id']
    rfl
  | succ n ih =>
    simp only [sendAll] at h ⊢
    split at h
    case isTrue => simp at h
    case isFalse hok =>
      rw [if_neg hok, ih h]
      simp only [sent, Feed.sendData, List.getElem?_modify, Option.map_eq_map, Option.map_map]
      congr 1
      funext t
      simp only [Function.comp_apply]
      by_cases hij : i = j
      · subst hij
        simp
      · rw [if_neg hij]
        congr 1
        rw [eq_iff_iff]
        omega

theorem sendAll_transmitted_all
    (h : (sendAll sendtoFails count c.feed.transmitted.length 0 c).2 = none) :
    (sendAll sendtoFails count c.feed.transmitted.length 0 c).1.feed.transmitted =
      c.feed.transmitted.map (· ++ [c.feed.buff.take count]) := by
  apply List.ext_getElem?
  intro j
  rw [sendAll_transmitted h, List.getElem?_map]
  by_cases hj : j < c.feed.transmitted.length
  · simp [hj]
  · simp [List.getElem?_eq_none_iff.mpr (Nat.le_of_not_lt hj)]

/-- The `BOOST_FOREACH` on the datagram just read. `sendtoFails k i` says that the `sendto`
of datagram number `k` on sender number `i` returns `-1`. -/
def fanOut (sendtoFails : ℕ → ℕ → Bool) (c : ReceiveCall) : ReceiveCall × Option Fault :=
  sendAll (sendtoFails c.feed.taken) c.count c.received.feed.transmitted.length 0 c.received

/-- `ReceiverSocket::ReceiveData`. The second component is the exception that leaves the
call, if any. -/
def receiveData (sendtoFails : ℕ → ℕ → Bool) (c : ReceiveCall) : ReceiveCall × Option Fault :=
  if _hcount : 0 < c.count ∧ c.count ≤ MAX_PACKET_SIZE then
    -- `while(count > 0)` holds whenever it is reached
    if (fanOut sendtoFails c).2.isSome then fanOut sendtoFails c
    else receiveData sendtoFails (fanOut sendtoFails c).1
  else (c.received, none)
termination_by c.feed.waiting.length
decreasing_by
  rw [fanOut, sendAll_waiting]
  cases hq : c.feed.waiting with
  | nil => exact absurd _hcount.2 (Nat.not_le_of_lt (count_gt_of_error (result_of_nil hq)))
  | cons d ds =>
    rw [waiting_received_of_cons hq]
    exact Nat.lt_succ_self _

variable {c' : ReceiveCall} {fails : ℕ → ℕ → Bool} {e : RecvError}

theorem count_of_nonempty (hq : c.feed.waiting = d :: ds) (hlen : c.refused = false)
    (hd : d ≠ []) : 0 < c.count ∧ c.count ≤ MAX_PACKET_SIZE := by
  have hpos : 0 < d.length := List.length_pos_iff.mpr hd
  rw [count_of_cons hq hlen]
  simp only [MAX_PACKET_SIZE]
  omega

theorem receiveData_of_error (hr : c.result = .error e) :
    receiveData fails c = (c.received, none) := by
  have hcount := count_gt_of_error hr
  rw [receiveData, dif_neg]
  omega

theorem receiveData_of_empty (hq : c.feed.waiting = [] :: ds) (hlen : c.refused = false) :
    receiveData fails c = (c.received, none) := by
  have hcount : c.count = 0 := count_of_cons hq hlen
  rw [receiveData, dif_neg]
  omega

theorem receiveData_of_fault (hq : c.feed.waiting = d :: ds) (hlen : c.refused = false)
    (hd : d ≠ []) (hfault : (fanOut fails c).2 ≠ none) :
    receiveData fails c = fanOut fails c := by
  rw [receiveData, dif_pos (count_of_nonempty hq hlen hd)]
  exact if_pos (Option.isSome_iff_ne_none.mpr hfault)

theorem receiveData_of_sent (hq : c.feed.waiting = d :: ds) (hlen : c.refused = false)
    (hd : d ≠ []) (hfault : (fanOut fails c).2 = none) :
    receiveData fails c = receiveData fails (fanOut fails c).1 := by
  have hnot : ¬ (fanOut fails c).2.isSome = true := by simp [hfault]
  rw [receiveData, dif_pos (count_of_nonempty hq hlen hd)]
  exact if_neg hnot

theorem waiting_fanOut (hq : c.feed.waiting = d :: ds) : (fanOut fails c).1.feed.waiting = ds := by
  rw [fanOut, sendAll_waiting, waiting_received_of_cons hq]

theorem fanOut_sockLen (hq : c.feed.waiting = d :: ds) (hlen : c.refused = false) :
    (fanOut fails c).1.sockLen = SOCKADDR_IN_SIZE := by
  have hkeep : (fanOut fails c).1.sockLen = c.received.sockLen :=
    sendAll_frame (f := sockLen) fun _ _ => rfl
  rw [hkeep, sockLen_received_of_cons hq hlen]

/-- Only the first `recvfrom` of a call can be given a length that is refused. -/
theorem fanOut_refused (hq : c.feed.waiting = d :: ds) (hlen : c.refused = false) :
    (fanOut fails c).1.refused = false := by
  rw [refused, fanOut_sockLen hq hlen]
  rfl

/-- The rule for the loop, one case for each way in which a turn of it can end: nothing
left, a length that is refused, an empty datagram, a failed fan-out, and one after which the
loop goes on. -/
@[elab_as_elim]
theorem receiveData_rule (fails : ℕ → ℕ → Bool) {motive : ReceiveCall → Prop}
    (nil : ∀ c, c.feed.waiting = [] → receiveData fails c = (c.received, none) → motive c)
    (refused : ∀ c d ds, c.feed.waiting = d :: ds → c.refused = true →
      receiveData fails c = (c.received, none) → motive c)
    (empty : ∀ c ds, c.feed.waiting = [] :: ds → c.refused = false →
      receiveData fails c = (c.received, none) → motive c)
    (fault : ∀ c d ds, c.feed.waiting = d :: ds → c.refused = false → d ≠ [] →
      (fanOut fails c).2 ≠ none → receiveData fails c = fanOut fails c → motive c)
    (sent : ∀ c d ds, c.feed.waiting = d :: ds → c.refused = false → d ≠ [] →
      (fanOut fails c).2 = none → receiveData fails c = receiveData fails (fanOut fails c).1 →
      motive (fanOut fails c).1 → motive c)
    (c : ReceiveCall) : motive c := by
  generalize hq : c.feed.waiting = queue
  induction queue generalizing c with
  | nil => exact nil c hq (receiveData_of_error (result_of_nil hq))
  | cons d ds ih =>
    cases hlen : c.refused with
    | true => exact refused c d ds hq hlen (receiveData_of_error (result_of_refused hq hlen))
    | false =>
      by_cases hd : d = []
      · subst hd
        exact empty c ds hq hlen (receiveData_of_empty hq hlen)
      · by_cases hfault : (fanOut fails c).2 = none
        · exact sent c d ds hq hlen hd hfault (receiveData_of_sent hq hlen hd hfault)
            (ih _ (waiting_fanOut hq))
        · exact fault c d ds hq hlen hd hfault (receiveData_of_fault hq hlen hd hfault)

/-- The datagrams handed to the senders: those before the first empty one, unless the length
that the call finds is refused. -/
def served (c : ReceiveCall) : List Datagram :=
  if c.refused then [] else c.feed.waiting.takeWhile fun d => !d.isEmpty

/-- The `sendto` calls of a `ReceiveData` call that gets through all of them. -/
def NoFailure (fails : ℕ → ℕ → Bool) (c : ReceiveCall) : Prop :=
  ∀ k i, c.feed.taken ≤ k → k < c.feed.taken + c.served.length →
    i < c.feed.transmitted.length → fails k i = false

structure Returned (c c' : ReceiveCall) : Prop where
  arrived : c'.feed.arrived = c.feed.arrived
  taken : c'.feed.taken =
    c.feed.taken + c.served.length + if c.served.length < c.feed.waiting.length then 1 else 0
  transmitted : c'.feed.transmitted =
    c.feed.transmitted.map (· ++ c.served.map (List.take MAX_PACKET_SIZE))

theorem returned_of_nil (hq : c.feed.waiting = []) : c.Returned c.received := by
  have hfeed := feed_received_of_nil hq
  constructor
  · rw [hfeed]
  · simp [hfeed, served, hq]
  · simp [hfeed, served, hq]

theorem returned_of_unserved (hq : c.feed.waiting = d :: ds) (hserved : c.served = []) :
    c.Returned c.received := by
  have hfeed := feed_received_of_cons hq
  constructor
  · simp [hfeed, Feed.dequeue]
  · simp [hfeed, hserved, hq, Feed.dequeue]
  · simp [hfeed, hserved, Feed.dequeue]

theorem served_of_refused (hlen : c.refused = true) : c.served = [] := if_pos hlen

theorem served_of_empty (hq : c.feed.waiting = [] :: ds) : c.served = [] := by
  simp [served, hq]

theorem served_of_accepted (hlen : c.refused = false) :
    c.served = c.feed.waiting.takeWhile fun d => !d.isEmpty := by
  simp [served, hlen]

theorem served_of_cons (hq : c.feed.waiting = d :: ds) (hlen : c.refused = false)
    (hd : d ≠ []) : c.served = d :: ds.takeWhile fun d => !d.isEmpty := by
  simp [served_of_accepted hlen, hq, hd]

theorem served_fanOut (hq : c.feed.waiting = d :: ds) (hlen : c.refused = false) :
    (fanOut fails c).1.served = ds.takeWhile fun d => !d.isEmpty := by
  rw [served_of_accepted (fanOut_refused hq hlen), waiting_fanOut hq]

theorem fanOut_taken (hq : c.feed.waiting = d :: ds) :
    (fanOut fails c).1.feed.taken = c.feed.taken + 1 := by
  rw [fanOut, sendAll_taken, feed_received_of_cons hq]
  rfl

theorem fanOut_arrived (hq : c.feed.waiting = d :: ds) :
    (fanOut fails c).1.feed.arrived = c.feed.arrived := by
  rw [fanOut, sendAll_arrived, feed_received_of_cons hq]
  rfl

theorem transmitted_received_of_cons (hq : c.feed.waiting = d :: ds) :
    c.received.feed.transmitted = c.feed.transmitted := by
  rw [feed_received_of_cons hq]
  rfl

theorem fanOut_fault_eq_none (hq : c.feed.waiting = d :: ds) : (fanOut fails c).2 = none ↔
    ∀ i < c.feed.transmitted.length, fails c.feed.taken i = false := by
  rw [fanOut, sendAll_fault_eq_none, transmitted_received_of_cons hq]
  simp

theorem fanOut_transmitted (hq : c.feed.waiting = d :: ds) (hlen : c.refused = false)
    (hfault : (fanOut fails c).2 = none) : (fanOut fails c).1.feed.transmitted =
      c.feed.transmitted.map (· ++ [d.take MAX_PACKET_SIZE]) := by
  rw [fanOut, sendAll_transmitted_all hfault, buff_received_of_cons hq hlen,
    transmitted_received_of_cons hq]

theorem noFailure_iff_of_cons (hq : c.feed.waiting = d :: ds) (hlen : c.refused = false)
    (hd : d ≠ []) (hfault : (fanOut fails c).2 = none) :
    NoFailure fails c ↔ NoFailure fails (fanOut fails c).1 := by
  have hfirst := (fanOut_fault_eq_none hq).mp hfault
  have hsenders : (fanOut fails c).1.feed.transmitted.length = c.feed.transmitted.length := by
    rw [fanOut_transmitted hq hlen hfault, List.length_map]
  simp only [NoFailure, fanOut_taken hq, hsenders, served_fanOut hq hlen, served_of_cons hq hlen hd,
    List.length_cons]
  constructor
  · intro h k i hk hlt hi
    exact h k i (by omega) (by omega) hi
  · intro h k i hk hlt hi
    by_cases hkt : k = c.feed.taken
    · rw [hkt]
      exact hfirst i hi
    · exact h k i (by omega) (by omega) hi

theorem returned_of_cons (hq : c.feed.waiting = d :: ds) (hlen : c.refused = false)
    (hd : d ≠ []) (hfault : (fanOut fails c).2 = none) (h : (fanOut fails c).1.Returned c') :
    c.Returned c' := by
  obtain ⟨harrived, htaken, htransmitted⟩ := h
  constructor
  · rw [harrived, fanOut_arrived hq]
  · rw [htaken, fanOut_taken hq, served_fanOut hq hlen, waiting_fanOut hq, served_of_cons hq hlen hd, hq]
    simp only [List.length_cons, Nat.succ_lt_succ_iff]
    omega
  · rw [htransmitted, fanOut_transmitted hq hlen hfault, served_fanOut hq hlen, served_of_cons hq hlen hd]
    simp

theorem receiveData_fault_eq_none : (receiveData fails c).2 = none ↔ NoFailure fails c := by
  induction c using receiveData_rule fails with
  | nil c hq hcall =>
    simp [hcall, NoFailure, served, hq]
    omega
  | refused c d ds hq hlen hcall =>
    simp [hcall, NoFailure, served_of_refused hlen]
    omega
  | empty c ds hq hlen hcall =>
    simp [hcall, NoFailure, served_of_empty hq]
    omega
  | fault c d ds hq hlen hd hfault hcall =>
    rw [hcall]
    refine ⟨fun h => absurd h hfault, fun h => ?_⟩
    apply (fanOut_fault_eq_none hq).mpr
    intro i hi
    apply h c.feed.taken i (Nat.le_refl _) _ hi
    simp [served_of_cons hq hlen hd]
  | sent c d ds hq hlen hd hfault hcall ih =>
    rw [hcall, noFailure_iff_of_cons hq hlen hd hfault]
    exact ih

theorem receiveData_returned (h : (receiveData fails c).2 = none) :
    c.Returned (receiveData fails c).1 := by
  induction c using receiveData_rule fails with
  | nil c hq hcall =>
    rw [hcall]
    exact returned_of_nil hq
  | refused c d ds hq hlen hcall =>
    rw [hcall]
    exact returned_of_unserved hq (served_of_refused hlen)
  | empty c ds hq hlen hcall =>
    rw [hcall]
    exact returned_of_unserved hq (served_of_empty hq)
  | fault c d ds hq hlen hd hfault hcall =>
    rw [hcall] at h
    exact absurd h hfault
  | sent c d ds hq hlen hd hfault hcall ih =>
    rw [hcall] at h ⊢
    exact returned_of_cons hq hlen hd hfault (ih h)

end ReceiveCall
end MddProxy
