import MddProxy.Dispatch.FeedOrder
import MddProxy.Dispatch.ExactlyOnce

/-!
# In-order delivery of one feed

Nothing in the dispatcher keeps two workers away from one receiver: two events for
one descriptor may be served at the same time, through the same buffer. As long as
no `ReceiveData` call on a receiver starts while another one is in progress, the
receiver is a relay: each of its senders transmits a prefix of what arrived.
-/
namespace MddProxy

def RunPc.serving (fd : Fd) : RunPc → Bool
  | .recvfrom fd' _ | .sending fd' _ _ => fd' = fd
  | _ => false

namespace System

open Interleaving

variable {s s' : System} {w k : ℕ} {wk wk' : Worker} {pc pc' : RunPc} {fd : Fd} {f f' : Feed}

/-- The receiver on which the next step of the thread starts a `ReceiveData` call. -/
def startsOn (s : System) (w k : ℕ) : Option Fd :=
  (s.heap[w]?).bind fun wk => if wk.threads[k]? = some .receiving then wk.receiverSocket else none

/-- The receiver from which the next step of the thread takes a datagram with a length that
is refused. -/
def refusedOn (s : System) (w k : ℕ) : Option Fd :=
  match s.pcAt w k with
  | some (.recvfrom fd sockLen) =>
    if lengthRefused sockLen = true ∧ ∃ f ∈ s.receivers fd, f.taken < f.arrived.length then
      some fd
    else none
  | _ => none

theorem refusedOn_of_invalid {sockLen : UInt32} (hpc : s.pcAt w k = some (.recvfrom fd sockLen))
    (hf : s.receivers fd = some f) (h : f.recvfrom sockLen = (.error .invalid, f')) :
    s.refusedOn w k = some fd := by
  obtain ⟨hlen, d, hd, -⟩ := Feed.recvfrom_invalid h
  have hlt := (List.getElem?_eq_some_iff.mp hd).1
  simp [refusedOn, hpc, hlen, hf, hlt]

/-- The guard: datagrams for `fd` have 1 to 1024 bytes, no `ReceiveData` call on it starts
while another one is in progress, and none takes a datagram with a length that is refused. -/
def ServedAlone (fd : Fd) (s : System) : Action → Prop
  | .arrive fd' d => fd' = fd → 1 ≤ d.length ∧ d.length ≤ MAX_PACKET_SIZE
  | .thread w k => (s.startsOn w k = some fd → threadsAt (RunPc.serving fd) s.heap = 0) ∧
    s.refusedOn w k ≠ some fd
  | _ => True

instance (fd : Fd) (s : System) (a : Action) : Decidable (s.ServedAlone fd a) :=
  match a with
  | .arrive fd' d =>
    inferInstanceAs (Decidable (fd' = fd → 1 ≤ d.length ∧ d.length ≤ MAX_PACKET_SIZE))
  | .thread w k => inferInstanceAs (Decidable ((s.startsOn w k = some fd →
      threadsAt (RunPc.serving fd) s.heap = 0) ∧ s.refusedOn w k ≠ some fd))
  | .processData _ | .dispatch | .addWorkers _ | .add | .stop | .sweep | .sendFails .. =>
    .isTrue trivial

/-- At most one thread serves `fd`, and the feed is where that thread's program point
says; with nobody in a fan-out it is settled. -/
structure Orderly (fd : Fd) (s : System) (f : Feed) : Prop where
  sized : f.WellSized
  alone : ∀ w k w' k' pc pc', s.pcAt w k = some pc → s.pcAt w' k' = some pc' →
    pc.serving fd = true → pc'.serving fd = true → w = w' ∧ k = k'
  settled : (∀ w k count i, s.pcAt w k ≠ some (.sending fd count i)) → f.Settled
  relaying : ∀ w k count i, s.pcAt w k = some (.sending fd count i) → f.Relaying count i

theorem orderly_start {count n : ℕ} {senders : Fd → Option ℕ} {junk : Junk} :
    Orderly fd (start count senders junk) (.fresh n (junk.buff fd)) := by
  have hloop : ∀ w k pc, (start count senders junk).pcAt w k = some pc → pc = .loop := by
    intro w k pc h
    obtain ⟨wk, hw, hpc⟩ := pcAt_eq_some.mp h
    obtain ⟨i, -, rfl⟩ := List.mem_map.mp (List.mem_of_getElem? hw)
    simpa using List.mem_of_getElem? hpc
  refine ⟨Feed.wellSized_fresh n (junk.buff fd), ?_, fun _ => Feed.settled_fresh n (junk.buff fd), ?_⟩
  · intro w k w' k' pc pc' h _ hs _
    simp [hloop w k pc h, RunPc.serving] at hs
  · intro w k count i h
    have := hloop w k _ h
    simp at this

/-- Wherever the feed is, each sender has transmitted a front part of what arrived. -/
theorem Orderly.frontParts (ho : Orderly fd s f) : f.FrontParts := by
  by_cases h : ∃ w k count i, s.pcAt w k = some (.sending fd count i)
  · obtain ⟨w, k, count, i, h⟩ := h
    exact (ho.relaying w k count i h).frontParts
  · exact (ho.settled fun w k count i h' => h ⟨w, k, count, i, h'⟩).frontParts

theorem Orderly.narrow (ho : Orderly fd s f)
    (hsub : ∀ w k pc, pc.serving fd = true → s'.pcAt w k = some pc → s.pcAt w k = some pc)
    (hfan : ∀ w k count i, s.pcAt w k = some (.sending fd count i) →
      s'.pcAt w k = some (.sending fd count i)) : Orderly fd s' f where
  sized := ho.sized
  alone w k w' k' pc pc' h h' hs hs' :=
    ho.alone w k w' k' pc pc' (hsub w k pc hs h) (hsub w' k' pc' hs' h') hs hs'
  settled hnone := ho.settled fun w k count i h => hnone w k count i (hfan w k count i h)
  relaying w k count i h := ho.relaying w k count i (hsub w k _ (by simp [RunPc.serving]) h)

theorem Orderly.same (ho : Orderly fd s f)
    (hsame : ∀ w k pc, pc.serving fd = true → (s'.pcAt w k = some pc ↔ s.pcAt w k = some pc)) :
    Orderly fd s' f :=
  ho.narrow (fun w k pc hs h => (hsame w k pc hs).mp h)
    fun w k count i h => (hsame w k _ (by simp [RunPc.serving])).mpr h

theorem Orderly.leave (ho : Orderly fd s f) (hw : s.heap[w]? = some wk)
    (hpc : wk.threads[k]? = some pc) (hheap : s'.heap = s.heap.set w wk')
    (hset : wk'.threads = wk.threads.set k pc') (hn : ∀ count i, pc ≠ .sending fd count i)
    (hn' : pc'.serving fd = false) : Orderly fd s' f := by
  have hat : s.pcAt w k = some pc := pcAt_eq_some.mpr ⟨wk, hw, hpc⟩
  have hmove := pcAt_move hw hpc hheap hset
  refine ho.narrow (fun i j pc₀ hs h => ?_) fun i j count n h => ?_
  · rw [hmove] at h
    split at h
    next =>
      rw [← Option.some.inj h, hn'] at hs
      exact absurd hs Bool.false_ne_true
    next => exact h
  · rw [hmove]
    split
    next hij =>
      obtain ⟨rfl, rfl⟩ := hij
      exact absurd (Option.some.inj (hat.symm.trans h)) (hn count n)
    next => exact h

theorem Orderly.turn (hw : s.heap[w]? = some wk) (hpc : wk.threads[k]? = some pc)
    (hheap : s'.heap = s.heap.set w wk') (hset : wk'.threads = wk.threads.set k pc')
    (honly : ∀ i j pc₀, s.pcAt i j = some pc₀ → pc₀.serving fd = true → i = w ∧ j = k)
    (hsized : f'.WellSized) (hsettled : (∀ count i, pc' ≠ .sending fd count i) → f'.Settled)
    (hrelaying : ∀ count i, pc' = .sending fd count i → f'.Relaying count i) :
    Orderly fd s' f' := by
  have hmove := pcAt_move hw hpc hheap hset
  have honly' : ∀ i j pc₀, s'.pcAt i j = some pc₀ → pc₀.serving fd = true →
      i = w ∧ j = k ∧ pc₀ = pc' := by
    intro i j pc₀ h hs
    rw [hmove] at h
    split at h
    next hij => exact ⟨hij.1, hij.2, (Option.some.inj h).symm⟩
    next hij => exact absurd (honly i j pc₀ h hs) hij
  refine ⟨hsized, ?_, ?_, ?_⟩
  · intro i j i' j' pc₁ pc₂ h₁ h₂ hs₁ hs₂
    obtain ⟨rfl, rfl, -⟩ := honly' i j pc₁ h₁ hs₁
    obtain ⟨rfl, rfl, -⟩ := honly' i' j' pc₂ h₂ hs₂
    exact ⟨rfl, rfl⟩
  · intro hnone
    refine hsettled fun count i h => hnone w k count i ?_
    rw [hmove, if_pos ⟨rfl, rfl⟩, h]
  · intro i j count n h
    obtain ⟨-, -, rfl⟩ := honly' i j _ h (by simp [RunPc.serving])
    exact hrelaying count n rfl

/-- A step of the machine as steps of the relay that the receiver of `fd` is. -/
def Relays (fd : Fd) (s' : System) (f : Feed) : Prop :=
  ∃ f', s'.receivers fd = some f' ∧ Orderly fd s' f' ∧
    Reaches Relay.step anyStep f.toRelay f'.toRelay

theorem Orderly.relays_leave (ho : Orderly fd s f) (hf : s'.receivers fd = some f)
    (hw : s.heap[w]? = some wk) (hpc : wk.threads[k]? = some pc)
    (hheap : s'.heap = s.heap.set w wk') (hset : wk'.threads = wk.threads.set k pc')
    (hn : ∀ count i, pc ≠ .sending fd count i) (hn' : pc'.serving fd = false) :
    Relays fd s' f :=
  ⟨f, hf, ho.leave hw hpc hheap hset hn hn', .refl⟩

theorem Orderly.run (ho : Orderly fd s f) (hf : s.receivers fd = some f)
    (hw : s.heap[w]? = some wk) (hpc : wk.threads[k]? = some pc)
    (halone : pc = .receiving → wk.receiverSocket = some fd →
      threadsAt (RunPc.serving fd) s.heap = 0) (hrefused : s.refusedOn w k ≠ some fd)
    (hm : RunMove s w wk k pc s') : Relays fd s' f := by
  have hat : s.pcAt w k = some pc := pcAt_eq_some.mpr ⟨wk, hw, hpc⟩
  -- whoever serves `fd` is alone in doing so
  have honly : pc.serving fd = true → ∀ i j pc₀, s.pcAt i j = some pc₀ →
      pc₀.serving fd = true → i = w ∧ j = k :=
    fun hs i j pc₀ h hs₀ => ho.alone i j w k pc₀ pc h hat hs₀ hs
  cases hm with
  | unset | popEmpty => exact ⟨f, hf, ho.same fun _ _ _ _ => Iff.rfl, .refl⟩
  | call fd' hr =>
    by_cases hfd : fd' = fd
    · subst hfd
      have hnone : ∀ i j pc₀, s.pcAt i j = some pc₀ → ¬ pc₀.serving fd' = true := by
        intro i j pc₀ h hs
        obtain ⟨wk₀, hw₀, hpc₀⟩ := pcAt_eq_some.mp h
        have := threadsAt_pos hw₀ hpc₀ hs
        have := halone rfl hr
        omega
      refine ⟨f, hf, .turn hw hpc rfl rfl (fun i j pc₀ h hs => absurd hs (hnone i j pc₀ h))
        ho.sized (fun _ => ho.settled fun i j count n h => ?_) (by simp), .refl⟩
      exact hnone i j _ h (by simp [RunPc.serving])
    · exact ho.relays_leave hf hw hpc rfl rfl (by simp) (by simp [RunPc.serving, hfd])
  | invalid fd' sockLen f₀ f' hf₀ hrecv =>
    by_cases hfd : fd' = fd
    · subst hfd
      exact absurd (refusedOn_of_invalid hat hf₀ hrecv) hrefused
    · exact ho.relays_leave (by simpa [Function.update_of_ne (Ne.symm hfd)] using hf) hw hpc rfl rfl
        (by simp) rfl
  | emptyDatagram fd' sockLen f₀ f' hf₀ hrecv =>
    by_cases hfd : fd' = fd
    · subst hfd
      obtain rfl : f = f₀ := Option.some.inj (hf.symm.trans hf₀)
      exact absurd (ho.sized.recvfrom_pos hrecv) (Nat.lt_irrefl 0)
    · exact ho.relays_leave (by simpa [Function.update_of_ne (Ne.symm hfd)] using hf) hw hpc rfl rfl
        (by simp) rfl
  | received fd' sockLen f₀ f' count hf₀ hrecv =>
    by_cases hfd : fd' = fd
    · subst hfd
      obtain rfl : f = f₀ := Option.some.inj (hf.symm.trans hf₀)
      have honly := honly (by simp [RunPc.serving])
      -- this thread is not in a fan-out, so nobody is
      have hsettled : f.Settled := ho.settled fun i j c n h => by
        obtain ⟨rfl, rfl⟩ := honly i j _ h (by simp [RunPc.serving])
        simp [hat] at h
      have hrel := hsettled.recvfrom ho.sized hrecv
      refine ⟨f', by simp, .turn hw hpc rfl rfl honly (ho.sized.recvfrom hrecv)
        (fun h => absurd rfl (h _ _)) (fun c n h => ?_), ?_⟩
      · obtain ⟨-, rfl, rfl⟩ := RunPc.sending.inj h
        exact hrel
      · rw [Feed.toRelay_recvfrom hrecv]
        exact .refl
    · exact ho.relays_leave (by simpa [Function.update_of_ne (Ne.symm hfd)] using hf) hw hpc rfl rfl
        (by simp) (by simp [RunPc.serving, hfd])
  | send fd' f₀ count i hf₀ hi =>
    by_cases hfd : fd' = fd
    · subst hfd
      obtain rfl : f = f₀ := Option.some.inj (hf.symm.trans hf₀)
      have hrel := ho.relaying w k count i hat
      refine ⟨f.sendData i count, by simp, .turn hw hpc rfl rfl (honly (by simp [RunPc.serving]))
        ho.sized (fun h => absurd rfl (h _ _)) (fun c n h => ?_),
        .single trivial (hrel.toRelay_sendData hi)⟩
      obtain ⟨-, rfl, rfl⟩ := RunPc.sending.inj h
      exact hrel.sendData
    · exact ho.relays_leave (by simpa [Function.update_of_ne (Ne.symm hfd)] using hf) hw hpc rfl rfl
        (by simp [hfd]) (by simp [RunPc.serving, hfd])
  | sentAll fd' f₀ count i hf₀ hi =>
    by_cases hfd : fd' = fd
    · subst hfd
      obtain rfl : f = f₀ := Option.some.inj (hf.symm.trans hf₀)
      have hrel := ho.relaying w k count i hat
      exact ⟨f, hf, .turn hw hpc rfl rfl (honly (by simp [RunPc.serving])) ho.sized
        (fun _ => hrel.settled hi) (by simp), .refl⟩
    · exact ho.relays_leave hf hw hpc rfl rfl (by simp [hfd]) (by simp [RunPc.serving, hfd])
  | _ => exact ho.relays_leave hf hw hpc rfl rfl (by simp) rfl

theorem Orderly.arrive {d : Datagram} (ho : Orderly fd s f)
    (hd : 1 ≤ d.length ∧ d.length ≤ MAX_PACKET_SIZE) (hpc : ∀ w k, s'.pcAt w k = s.pcAt w k) :
    Orderly fd s' (f.arrive d) where
  sized := ho.sized.arrive hd
  alone w k w' k' pc pc' h h' := ho.alone w k w' k' pc pc' (hpc w k ▸ h) (hpc w' k' ▸ h')
  settled hnone := (ho.settled fun w k count i h => hnone w k count i ((hpc w k).trans h)).arrive d
  relaying w k count i h := (ho.relaying w k count i ((hpc w k).symm.trans h)).arrive d

theorem Orderly.store (ho : Orderly fd s f) (hw : s.heap[w]? = some wk)
    (hheap : s'.heap = s.heap.set w wk') (hset : wk'.threads = wk.threads) : Orderly fd s' f :=
  ho.same fun i j pc _ => by rw [pcAt_store hw hheap hset]

theorem RunPc.serving_ne_loop (hs : pc.serving fd = true) : pc ≠ .loop := by
  rintro rfl
  simp [RunPc.serving] at hs

theorem Orderly.dispatch {pc : DispatchPc} (ho : Orderly fd s f) (hm : DispatchMove s pc s') :
    Orderly fd s' f := by
  cases hm with
  | assignFree v fd' evs wk hv | resumeFree v fd' evs wk hv | assignNew v fd' evs wk hv
  | resumeNew v fd' evs wk hv =>
    exact ho.store hv rfl rfl
  | createNew fd' evs =>
    exact ho.same fun i j pc hs => pcAt_newWorker rfl i j (RunPc.serving_ne_loop hs)
  | createAgain v fd' evs wk hv =>
    exact ho.same fun i j pc hs => pcAt_create hv rfl i j (RunPc.serving_ne_loop hs)
  | _ => exact ho.same fun _ _ _ _ => Iff.rfl

theorem Orderly.step {a : Action} (ho : Orderly fd s f) (hf : s.receivers fd = some f)
    (hok : s.ServedAlone fd a) (hs : s.step a = some s') : Relays fd s' f := by
  cases (step_move hs).2 with
  | arrive fd' d f₀ hf₀ =>
    by_cases hfd : fd' = fd
    · subst hfd
      obtain rfl : f = f₀ := Option.some.inj (hf.symm.trans hf₀)
      exact ⟨f.arrive d, by simp, ho.arrive (hok rfl) fun _ _ => rfl,
        .single trivial (Feed.toRelay_arrive d)⟩
    · exact ⟨f, by simpa [Function.update_of_ne (Ne.symm hfd)] using hf,
        ho.same fun _ _ _ _ => Iff.rfl, .refl⟩
  | dispatch pc s' _ hm =>
    have hrecv : s'.receivers = s.receivers := by cases hm <;> rfl
    exact ⟨f, by rw [hrecv, hf], ho.dispatch hm, .refl⟩
  | add pc s' _ hm =>
    cases hm with
    | createNew k =>
      exact ⟨f, hf, ho.same fun i j pc hs => pcAt_newWorker rfl i j (RunPc.serving_ne_loop hs),
        .refl⟩
    | _ => exact ⟨f, hf, ho.same fun _ _ _ _ => Iff.rfl, .refl⟩
  | sweep pc s' _ hm =>
    cases hm with
    | finishAndDie i n v wk _ _ hv =>
      exact ⟨f, hf, ho.store hv rfl rfl, .refl⟩
    | finish => exact ⟨f, hf, ho.same fun _ _ _ _ => Iff.rfl, .refl⟩
  | thread w k wk pc s' hw hpc hm =>
    refine ho.run hf hw hpc (fun h hsock => hok.1 ?_) hok.2 hm
    subst h
    simp [startsOn, hw, hpc, hsock]
  | _ => exact ⟨f, hf, ho.same fun _ _ _ _ => Iff.rfl, .refl⟩

/-- The receiver of `fd`, with its `n` senders, refines a relay with `n` outputs. -/
theorem feed_refines_relay {count n : ℕ} {senders : Fd → Option ℕ} {junk : Junk}
    (hreg : senders fd = some n)
    (h : Reaches step (ServedAlone fd) (start count senders junk) s) :
    ∃ f, s.receivers fd = some f ∧ Orderly fd s f ∧
      Reaches Relay.step anyStep (.initial n) f.toRelay := by
  obtain ⟨r, hr, f, hf, ho, rfl⟩ : ∃ r, Reaches Relay.step anyStep (.initial n) r ∧
      ∃ f, s.receivers fd = some f ∧ Orderly fd s f ∧ f.toRelay = r :=
    h.simulation (R := fun s r => ∃ f, s.receivers fd = some f ∧ Orderly fd s f ∧ f.toRelay = r)
    ⟨.fresh n (junk.buff fd), by simp [start, hreg], orderly_start, by
      simp [Feed.toRelay, Feed.fresh, Relay.initial]⟩
    (by
      rintro s a s' _ ⟨f, hf, ho, rfl⟩ hok hs
      obtain ⟨f', hf', ho', hr⟩ := ho.step hf hok hs
      exact ⟨f'.toRelay, hr, f', hf', ho', rfl⟩)
  exact ⟨f, hf, ho, hr⟩

/-- **In-order delivery**: as long as the receiver of `fd` is served by one `ReceiveData`
call at a time, and none of them loses a datagram to its unset `sockLen`, each of its
senders has transmitted a prefix of what arrived. -/
theorem delivered_in_order {count n : ℕ} {senders : Fd → Option ℕ} {junk : Junk}
    (hreg : senders fd = some n)
    (h : Reaches step (ServedAlone fd) (start count senders junk) s) :
    ∃ f, s.receivers fd = some f ∧ f.transmitted.length = n ∧
      ∀ t ∈ f.transmitted, t <+: f.arrived := by
  obtain ⟨f, hf, ho, hr⟩ := feed_refines_relay hreg h
  have hout := ho.frontParts.outputs
  refine ⟨f, hf, ?_, fun t ht => ?_⟩
  · rw [← hout]
    exact Relay.length_outputs hr
  · exact f.toRelay.outputs_prefix t (hout ▸ ht)

/-- Two datagrams for receiver 0, each with an event of its own; the events go to workers 0
and 1, and worker 0 enters `ReceiveData`. -/
def twoServers : List Action :=
  [.arrive 0 [1], .processData [0]] ++ List.replicate 5 .dispatch ++
    [.arrive 0 [2], .processData [0]] ++ List.replicate 5 .dispatch ++
    List.replicate 2 (.thread 0 0)

theorem delivered_in_order_two_events :
    ∃ s f, Reaches step (ServedAlone 0) elevenReceivers s ∧ s.receivers 0 = some f ∧
      f.transmitted = [[[1], [2]]] ∧ ∀ t ∈ f.transmitted, t <+: f.arrived := by
  obtain ⟨s, hs, hsent⟩ : ∃ s, Reaches step (ServedAlone 0) elevenReceivers s ∧
      ∃ f ∈ s.receivers 0, f.transmitted = [[[1], [2]]] :=
    exists_reaches_of_runChecked
      (twoServers ++ List.replicate 7 (.thread 0 0) ++ List.replicate 2 (.thread 1 0))
      (by decide)
  obtain ⟨f, hf, hsent⟩ := hsent
  obtain ⟨f', hf', -, hprefix⟩ : ∃ f, s.receivers 0 = some f ∧ f.transmitted.length = 1 ∧
      ∀ t ∈ f.transmitted, t <+: f.arrived := delivered_in_order (by decide) hs
  obtain rfl : f = f' := Option.some.inj (hf.symm.trans hf')
  exact ⟨s, f, hs, hf, hsent, hprefix⟩

/-- Datagrams have 1 to 1024 bytes and no `sendto` fails. -/
def PlainTraffic (_ : System) : Action → Prop
  | .arrive _ d => 1 ≤ d.length ∧ d.length ≤ MAX_PACKET_SIZE
  | .sendFails _ _ => False
  | _ => True

instance (s : System) (a : Action) : Decidable (s.PlainTraffic a) :=
  match a with
  | .arrive _ d => inferInstanceAs (Decidable (1 ≤ d.length ∧ d.length ≤ MAX_PACKET_SIZE))
  | .sendFails _ _ => .isFalse id
  | .processData _ | .dispatch | .addWorkers _ | .add | .stop | .sweep | .thread .. =>
    .isTrue trivial

/-- Worker 1 reads the second datagram over the first one before worker 0 has sent it. -/
theorem overwritten_datagram_reachable :
    ¬ ∀ s, Reaches step PlainTraffic elevenReceivers s →
      ∀ f ∈ s.receivers 0, ∀ t ∈ f.transmitted, t <+: f.arrived := by
  intro hstated
  obtain ⟨s, hs, f, hf, t, ht, hbad⟩ : ∃ s, Reaches step PlainTraffic elevenReceivers s ∧
      ∃ f ∈ s.receivers 0, ∃ t ∈ f.transmitted, ¬ t <+: f.arrived :=
    exists_reaches_of_runChecked
      (twoServers ++ List.replicate 2 (.thread 1 0) ++ [.thread 0 0, .thread 1 0, .thread 0 0])
      (by decide)
  exact hbad (hstated s hs f hf t ht)

/-- The calls do not overlap, and the first finds a length that is refused. -/
theorem refused_datagram_reachable :
    ∃ s, Reaches step PlainTraffic (start 5 (fun fd => if fd = 0 then some 1 else none)
        ⟨fun _ => [], fun call => if call = 0 then 0x80000000 else 16⟩) s ∧
      ∃ f ∈ s.receivers 0, f.arrived = [[1], [2]] ∧ f.transmitted = [[[2]]] :=
  exists_reaches_of_runChecked
    (twoServers ++ [.thread 0 0] ++ List.replicate 4 (.thread 1 0)) (by decide)

end System
end MddProxy
