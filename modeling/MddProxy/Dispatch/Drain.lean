import MddProxy.Dispatch.FanOut

/-!
# Draining an edge-triggered receiver

The receivers are registered with `EPOLLET`, so a call has to go on until `recvfrom`
reports that nothing is left: what it leaves in the queue, no later edge announces. It
stops on an empty datagram as it would at the end of a stream.
-/
namespace MddProxy
namespace ReceiveCall

variable {c : ReceiveCall} {fails : ℕ → ℕ → Bool} {d : Datagram} {ds : List Datagram}

theorem waiting_fanOut_lt (hcount : 0 < c.count ∧ c.count ≤ MAX_PACKET_SIZE) :
    (fanOut fails c).1.feed.waiting.length < c.feed.waiting.length := by
  cases hq : c.feed.waiting with
  | nil => exact absurd hcount.2 (Nat.not_le_of_lt (count_gt_of_error (result_of_nil hq)))
  | cons d ds =>
    rw [waiting_fanOut hq]
    exact Nat.lt_succ_self _

/-- What the `recvfrom` calls of a `ReceiveData` call return, in order. -/
def results (fails : ℕ → ℕ → Bool) (c : ReceiveCall) : List (Except RecvError ℕ) :=
  if _hcount : 0 < c.count ∧ c.count ≤ MAX_PACKET_SIZE then
    if (fanOut fails c).2.isSome then [c.result]
    else c.result :: results fails (fanOut fails c).1
  else [c.result]
termination_by c.feed.waiting.length
decreasing_by exact waiting_fanOut_lt _hcount

theorem results_of_error {e : RecvError} (hr : c.result = .error e) :
    results fails c = [.error e] := by
  have hcount := count_gt_of_error hr
  rw [results, dif_neg (by omega), hr]

theorem results_of_empty (hq : c.feed.waiting = [] :: ds) (hlen : c.refused = false) :
    results fails c = [.ok 0] := by
  have hcount : c.count = 0 := count_of_cons hq hlen
  rw [results, dif_neg (by omega), result_of_cons hq hlen]
  rfl

theorem results_of_fault (hq : c.feed.waiting = d :: ds) (hlen : c.refused = false)
    (hd : d ≠ []) (hfault : (fanOut fails c).2 ≠ none) :
    results fails c = [.ok (min d.length MAX_PACKET_SIZE)] := by
  rw [results, dif_pos (count_of_nonempty hq hlen hd),
    if_pos (Option.isSome_iff_ne_none.mpr hfault), result_of_cons hq hlen]

theorem results_of_sent (hq : c.feed.waiting = d :: ds) (hlen : c.refused = false)
    (hd : d ≠ []) (hfault : (fanOut fails c).2 = none) : results fails c =
      .ok (min d.length MAX_PACKET_SIZE) :: results fails (fanOut fails c).1 := by
  have hnot : ¬ (fanOut fails c).2.isSome = true := by simp [hfault]
  rw [results, dif_pos (count_of_nonempty hq hlen hd), if_neg hnot, result_of_cons hq hlen]

theorem receiveData_recvs :
    (receiveData fails c).1.recvs = c.recvs + (results fails c).length := by
  induction c using receiveData_rule fails with
  | nil c hq hcall =>
    rw [hcall, results_of_error (result_of_nil hq)]
    rfl
  | refused c d ds hq hlen hcall =>
    rw [hcall, results_of_error (result_of_refused hq hlen)]
    rfl
  | empty c ds hq hlen hcall =>
    rw [hcall, results_of_empty hq hlen]
    rfl
  | fault c d ds hq hlen hd hfault hcall =>
    rw [hcall, results_of_fault hq hlen hd hfault]
    exact fanOut_recvs
  | sent c d ds hq hlen hd hfault hcall ih =>
    rw [hcall, ih, results_of_sent hq hlen hd hfault, fanOut_recvs, List.length_cons]
    omega

/-- At most one `recvfrom` more than there are datagrams. -/
theorem results_length_le (fails : ℕ → ℕ → Bool) (c : ReceiveCall) :
    (results fails c).length ≤ c.feed.waiting.length + 1 := by
  induction c using receiveData_rule fails with
  | nil c hq hcall => simp [results_of_error (result_of_nil hq)]
  | refused c d ds hq hlen hcall => simp [results_of_error (result_of_refused hq hlen)]
  | empty c ds hq hlen hcall => simp [results_of_empty hq hlen]
  | fault c d ds hq hlen hd hfault hcall => simp [results_of_fault hq hlen hd hfault]
  | sent c d ds hq hlen hd hfault hcall ih =>
    rw [waiting_fanOut hq] at ih
    rw [results_of_sent hq hlen hd hfault, hq, List.length_cons, List.length_cons]
    omega

abbrev allSent : ℕ → ℕ → Bool := fun _ _ => false

theorem fanOut_allSent (hq : c.feed.waiting = d :: ds) : (fanOut allSent c).2 = none :=
  (fanOut_fault_eq_none hq).mpr fun _ _ => rfl

/-- The rule for the loop when no `sendto` fails. -/
@[elab_as_elim]
theorem allSent_rule {motive : ReceiveCall → Prop}
    (nil : ∀ c, c.feed.waiting = [] → receiveData allSent c = (c.received, none) → motive c)
    (refused : ∀ c d ds, c.feed.waiting = d :: ds → c.refused = true →
      receiveData allSent c = (c.received, none) → motive c)
    (empty : ∀ c ds, c.feed.waiting = [] :: ds → c.refused = false →
      receiveData allSent c = (c.received, none) → motive c)
    (sent : ∀ c d ds, c.feed.waiting = d :: ds → c.refused = false → d ≠ [] →
      (fanOut allSent c).2 = none →
      receiveData allSent c = receiveData allSent (fanOut allSent c).1 →
      motive (fanOut allSent c).1 → motive c)
    (c : ReceiveCall) : motive c := by
  induction c using receiveData_rule allSent with
  | nil c hq hcall => exact nil c hq hcall
  | refused c d ds hq hlen hcall => exact refused c d ds hq hlen hcall
  | empty c ds hq hlen hcall => exact empty c ds hq hlen hcall
  | fault c d ds hq hlen hd hfault hcall => exact absurd (fanOut_allSent hq) hfault
  | sent c d ds hq hlen hd hfault hcall ih => exact sent c d ds hq hlen hd hfault hcall ih

/-- The call returned, because `recvfrom` reported an empty queue, and without asking more
often than needed. -/
structure Drained (c : ReceiveCall) : Prop where
  returned : (receiveData allSent c).2 = none
  reported : (results allSent c).getLast? = some (.error .wouldBlock)
  nothingLeft : (receiveData allSent c).1.feed.waiting = []
  bounded : (receiveData allSent c).1.recvs ≤ c.recvs + c.feed.waiting.length + 1

theorem results_ne_nil (fails : ℕ → ℕ → Bool) (c : ReceiveCall) : results fails c ≠ [] := by
  rw [results]
  split
  · split <;> simp
  · simp

theorem getLast_results : (results allSent c).getLast? = some (.error .wouldBlock) ↔
    (∀ d ∈ c.feed.waiting, d ≠ []) ∧ (c.refused = true → c.feed.waiting = []) := by
  induction c using allSent_rule with
  | nil c hq hcall => simp [results_of_error (result_of_nil hq), hq]
  | refused c d ds hq hlen hcall =>
    simp [results_of_error (result_of_refused hq hlen), hq, hlen]
  | empty c ds hq hlen hcall => simp [results_of_empty hq hlen, hq]
  | sent c d ds hq hlen hd hfault hcall ih =>
    rw [waiting_fanOut hq, fanOut_refused hq hlen] at ih
    rw [results_of_sent hq hlen hd hfault, List.getLast?_cons, hq, List.forall_mem_cons]
    obtain ⟨last, hlast⟩ := Option.isSome_iff_exists.mp
      (List.getLast?_isSome.mpr (results_ne_nil allSent (fanOut allSent c).1))
    simp only [hlast, Option.some.injEq, reduceCtorEq, false_implies, and_true] at ih
    simp [hlast, hd, hlen, ih]

theorem drained_of_nonempty (hne : ∀ d ∈ c.feed.waiting, d ≠ [])
    (hlen : c.refused = true → c.feed.waiting = []) : c.Drained where
  returned := receiveData_fault_eq_none.mpr fun _ _ _ _ _ => rfl
  reported := getLast_results.mpr ⟨hne, hlen⟩
  nothingLeft := (isolated_of_noFailure hne hlen fun _ _ _ _ _ => rfl).allRead
  bounded := by
    have hcount := results_length_le allSent c
    rw [receiveData_recvs]
    omega

/-- **Edge-triggered drain**: a call with no failing `sendto` drains its receiver exactly
when no waiting datagram is empty, and none is waiting if the length that the call finds is
refused. -/
theorem drained_iff (c : ReceiveCall) : c.Drained ↔
    (∀ d ∈ c.feed.waiting, d ≠ []) ∧ (lengthRefused c.sockLen = true → c.feed.waiting = []) :=
  ⟨fun h => getLast_results.mp h.reported, fun ⟨hne, hlen⟩ => drained_of_nonempty hne hlen⟩

/-- An empty datagram before one of a byte, which stays in the queue. -/
def emptyFirst : ReceiveCall :=
  let c := firstCall 1 []
  { c with feed := c.feed.arrive [1] }

theorem emptyFirst_left : (receiveData allSent emptyFirst).1.feed.waiting = [[1]] := by
  rw [receiveData_of_empty rfl rfl]
  rfl

theorem datagram_left_behind : ¬ ∀ c : ReceiveCall, c.Drained := by
  intro hstated
  have hnone := (hstated emptyFirst).nothingLeft
  rw [emptyFirst_left] at hnone
  cases hnone

end ReceiveCall
end MddProxy
