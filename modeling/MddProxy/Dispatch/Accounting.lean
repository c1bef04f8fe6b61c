import MddProxy.Dispatch.Drain
import MddProxy.Interleaving.Runs
import Mathlib.Data.UInt

/-!
# The bytes that a call reports

`ReceiveData` reports `count` to the receiver's collector before it looks at it, and each
`SendData` reports what it sent to that of its sender. The `-1` of a `recvfrom` that would
block, which ends most calls, is reported as well: as `2 ^ 64 - 1` bytes.
-/
namespace MddProxy

open Interleaving

namespace ReceiveCall

variable {c c' : ReceiveCall} {d : Datagram} {ds : List Datagram} {sendtoFails : ℕ → Bool}
  {count n i j : ℕ}

/-- The sizes of the datagrams that a call receives: its results without a `-1`. -/
def sizes (c : ReceiveCall) : List ℕ := (results allSent c).filterMap Except.toOption

theorem sizes_of_error {e : RecvError} (hr : c.result = .error e) : c.sizes = [] := by
  rw [sizes, results_of_error hr]
  rfl

theorem sizes_of_empty (hq : c.feed.waiting = [] :: ds) (hlen : c.refused = false) :
    c.sizes = [0] := by
  rw [sizes, results_of_empty hq hlen]
  rfl

theorem sizes_of_sent (hq : c.feed.waiting = d :: ds) (hlen : c.refused = false) (hd : d ≠ []) :
    c.sizes = min d.length MAX_PACKET_SIZE :: (fanOut allSent c).1.sizes := by
  rw [sizes, results_of_sent hq hlen hd (fanOut_allSent hq)]
  rfl

theorem receiverBytes_received_of_error {e : RecvError} (hr : c.result = .error e) :
    c.received.receiverBytes = c.receiverBytes - 1 := by
  have hreport : UInt32.ofNat (2 ^ 64 - 1) = -1 := by decide
  rw [received, count_of_error hr, hreport, UInt32.sub_eq_add_neg]

theorem receiverBytes_received_of_cons (hq : c.feed.waiting = d :: ds) (hlen : c.refused = false) :
    c.received.receiverBytes = c.receiverBytes + UInt32.ofNat (min d.length MAX_PACKET_SIZE) := by
  rw [received, count_of_cons hq hlen]

theorem sendAll_receiverBytes :
    (sendAll sendtoFails count n i c).1.receiverBytes = c.receiverBytes :=
  sendAll_frame (f := receiverBytes) fun _ _ => rfl

theorem sendAll_senderBytes (h : (sendAll sendtoFails count n i c).2 = none) :
    (sendAll sendtoFails count n i c).1.senderBytes j =
      if i ≤ j ∧ j < i + n then c.senderBytes j + UInt32.ofNat count else c.senderBytes j := by
  induction n generalizing i c with
  | zero =>
    have hnot : ¬ (i ≤ j ∧ j < i + 0) := by omega
    rw [if_neg hnot]
    rfl
  | succ n ih =>
    simp only [sendAll] at h ⊢
    split at h
    case isTrue => simp at h
    case isFalse hok =>
      rw [if_neg hok, ih h]
      by_cases hij : j = i
      · subst hij
        simp [sent]
      · have hrange : i + 1 ≤ j ∧ j < i + 1 + n ↔ i ≤ j ∧ j < i + (n + 1) := by omega
        have hother : (c.sent i count).senderBytes j = c.senderBytes j := by
          simp [sent, Function.update_of_ne hij]
        rw [hother]
        exact if_congr hrange rfl rfl

theorem fanOut_receiverBytes (hq : c.feed.waiting = d :: ds) (hlen : c.refused = false) :
    (fanOut allSent c).1.receiverBytes =
      c.receiverBytes + UInt32.ofNat (min d.length MAX_PACKET_SIZE) := by
  rw [fanOut, sendAll_receiverBytes, receiverBytes_received_of_cons hq hlen]

theorem fanOut_senders (hq : c.feed.waiting = d :: ds) (hlen : c.refused = false) :
    (fanOut allSent c).1.feed.transmitted.length = c.feed.transmitted.length := by
  rw [fanOut_transmitted hq hlen (fanOut_allSent hq), List.length_map]

theorem fanOut_senderBytes (hq : c.feed.waiting = d :: ds) (hlen : c.refused = false)
    (hi : i < c.feed.transmitted.length) : (fanOut allSent c).1.senderBytes i =
      c.senderBytes i + UInt32.ofNat (min d.length MAX_PACKET_SIZE) := by
  have hvisited : 0 ≤ i ∧ i < 0 + c.received.feed.transmitted.length := by
    simp [transmitted_received_of_cons hq, hi]
  rw [fanOut, sendAll_senderBytes (fanOut_allSent hq), if_pos hvisited, count_of_cons hq hlen]
  rfl

def errorByte (c : ReceiveCall) : UInt32 :=
  if lengthRefused c.sockLen = false ∧ [] ∈ c.feed.waiting then 0 else 1

theorem receiveData_receiverBytes : (receiveData allSent c).1.receiverBytes =
    c.receiverBytes + UInt32.ofNat c.sizes.sum - c.errorByte := by
  induction c using allSent_rule with
  | nil c hq hcall =>
    rw [hcall, receiverBytes_received_of_error (result_of_nil hq),
      sizes_of_error (result_of_nil hq)]
    simp [errorByte, hq]
  | refused c d ds hq hlen hcall =>
    rw [hcall, receiverBytes_received_of_error (result_of_refused hq hlen),
      sizes_of_error (result_of_refused hq hlen)]
    simp [errorByte, show lengthRefused c.sockLen = true from hlen]
  | empty c ds hq hlen hcall =>
    rw [hcall, receiverBytes_received_of_cons hq hlen, sizes_of_empty hq hlen]
    simp [errorByte, hq, show lengthRefused c.sockLen = false from hlen]
  | sent c d ds hq hlen hd hfault hcall ih =>
    have hbyte : (fanOut allSent c).1.errorByte = c.errorByte := by
      have hr : lengthRefused c.sockLen = false := hlen
      have hr' : lengthRefused (fanOut allSent c).1.sockLen = false := fanOut_refused hq hlen
      simp [errorByte, hr, hr', waiting_fanOut hq, hq, hd.symm]
    rw [hcall, ih, hbyte, fanOut_receiverBytes hq hlen, sizes_of_sent hq hlen hd, List.sum_cons,
      UInt32.ofNat_add, UInt32.add_assoc]

theorem receiveData_senderBytes (hi : i < c.feed.transmitted.length) :
    (receiveData allSent c).1.senderBytes i = c.senderBytes i + UInt32.ofNat c.sizes.sum := by
  induction c using allSent_rule with
  | nil c hq hcall =>
    rw [hcall, sizes_of_error (result_of_nil hq)]
    simp [received]
  | refused c d ds hq hlen hcall =>
    rw [hcall, sizes_of_error (result_of_refused hq hlen)]
    simp [received]
  | empty c ds hq hlen hcall =>
    rw [hcall, sizes_of_empty hq hlen]
    simp [received]
  | sent c d ds hq hlen hd hfault hcall ih =>
    rw [hcall, ih (by rw [fanOut_senders hq hlen]; exact hi), fanOut_senderBytes hq hlen hi,
      sizes_of_sent hq hlen hd, List.sum_cons, UInt32.ofNat_add, UInt32.add_assoc]

/-- Every collector has been told the bytes that were received, and nothing else. -/
structure Accounted (c : ReceiveCall) : Prop where
  receiver : (receiveData allSent c).1.receiverBytes =
    c.receiverBytes + UInt32.ofNat c.sizes.sum
  senders : ∀ i < c.feed.transmitted.length,
    (receiveData allSent c).1.senderBytes i = c.senderBytes i + UInt32.ofNat c.sizes.sum

theorem accounted_iff : c.Accounted ↔
    lengthRefused c.sockLen = false ∧ [] ∈ c.feed.waiting := by
  have hreceiver := receiveData_receiverBytes (c := c)
  constructor
  · intro h
    by_contra hnone
    rw [h.receiver, errorByte, if_neg hnone] at hreceiver
    grind
  · intro hempty
    rw [errorByte, if_pos hempty, UInt32.sub_zero] at hreceiver
    exact ⟨hreceiver, fun i hi => receiveData_senderBytes hi⟩

/-- What happens to a receiver from one call to the next. -/
inductive Event where
  | arrive (d : Datagram)
  | receiveData (sockLen : UInt32)
  deriving DecidableEq, Repr

def step (c : ReceiveCall) : Event → Option ReceiveCall
  | .arrive d => some { c with feed := c.feed.arrive d }
  | .receiveData sockLen => some (receiveData allSent (c.called sockLen)).1

/-- The receiver's counter and those of its senders are equal. -/
def Balanced (c : ReceiveCall) : Prop :=
  ∀ i < c.feed.transmitted.length, c.senderBytes i = c.receiverBytes

/-- Each call is made with an empty datagram waiting, and a length that is not refused. -/
def EmptyWaiting (c : ReceiveCall) : Event → Prop
  | .arrive _ => True
  | .receiveData sockLen => lengthRefused sockLen = false ∧ [] ∈ c.feed.waiting

theorem receiveData_senders :
    (receiveData allSent c).1.feed.transmitted.length = c.feed.transmitted.length := by
  rw [(returned_allSent c).transmitted, List.length_map]

theorem Accounted.balanced (h : c.Accounted) (hb : c.Balanced) :
    (receiveData allSent c).1.Balanced := by
  intro i hi
  rw [receiveData_senders] at hi
  rw [h.senders i hi, h.receiver, hb i hi]

/-- With a sender, the byte of the error is what sets the counters apart. -/
theorem receiveData_balanced_iff (hb : c.Balanced) (hsender : c.feed.transmitted ≠ []) :
    (receiveData allSent c).1.Balanced ↔
      lengthRefused c.sockLen = false ∧ [] ∈ c.feed.waiting := by
  refine ⟨fun h => ?_, fun hempty => (accounted_iff.mpr hempty).balanced hb⟩
  by_contra hnone
  have hfirst : 0 < c.feed.transmitted.length := List.length_pos_iff.mpr hsender
  have hfirst' : 0 < (receiveData allSent c).1.feed.transmitted.length := by
    rw [receiveData_senders]
    exact hfirst
  have hsame := h 0 hfirst'
  rw [receiveData_senderBytes hfirst, receiveData_receiverBytes, hb 0 hfirst, errorByte,
    if_neg hnone] at hsame
  grind

theorem balanced_reaches (h : Reaches step EmptyWaiting c c') (hb : c.Balanced) :
    c'.Balanced := by
  apply h.invariant hb
  intro c e c' hb hempty hs
  cases e with
  | arrive d =>
    obtain rfl := Option.some.inj hs
    exact hb
  | receiveData sockLen =>
    obtain rfl := Option.some.inj hs
    have haccounted : (c.called sockLen).Accounted := accounted_iff.mpr hempty
    exact haccounted.balanced hb

/-- **Byte accounting**: a call accounts for its bytes exactly when an empty datagram is
waiting and its length is not refused, and over any number of such calls equal counters stay
equal. -/
theorem bytes_accounted (c : ReceiveCall) :
    (c.Accounted ↔ lengthRefused c.sockLen = false ∧ [] ∈ c.feed.waiting) ∧
    (c.Balanced → ∀ c', Reaches step EmptyWaiting c c' → c'.Balanced) :=
  ⟨accounted_iff, fun hb _ h => balanced_reaches h hb⟩

theorem bytes_accounted_empty_first : emptyFirst.Accounted ∧
    (receiveData allSent (emptyFirst.called 16)).1.Balanced := by
  have hempty : lengthRefused 16 = false ∧ [] ∈ emptyFirst.feed.waiting := by decide
  have hcall : Reaches step EmptyWaiting emptyFirst
      (receiveData allSent (emptyFirst.called 16)).1 :=
    .tail (a := .receiveData 16) .refl hempty rfl
  obtain ⟨haccounted, hbalanced⟩ := bytes_accounted emptyFirst
  exact ⟨haccounted.mpr ⟨rfl, hempty.2⟩, hbalanced (fun _ _ => rfl) _ hcall⟩

/-- One byte comes in and goes out, and the receiver's counter is back at zero. -/
theorem would_block_reported : ¬ ∀ c : ReceiveCall, c.Accounted := by
  intro hstated
  have hempty := accounted_iff.mp (hstated (firstCall 1 [1]))
  exact absurd hempty.2 (by decide)

end ReceiveCall
end MddProxy
