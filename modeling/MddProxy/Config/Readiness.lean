import MddProxy.Config.Routing
import MddProxy.Dispatch.Moves

/-!
# Every readiness event has its receiver

`AddReceiversFromConfig` enters a receiver under its descriptor and registers that same
descriptor with the epoll handle. `ProcessData` looks every event up in the map that was
built, and hands each one to a worker or to the queue.
-/
namespace MddProxy

open PropertyTree Collections Interleaving

/-- The map of receivers, the epoll handle and the sockets name the same descriptors. -/
structure Registered (p : Proxy) : Prop where
  registered : p.epoller.registered = p.receivers.map (·.1)
  nodup : (p.receivers.map (·.1)).Nodup
  fdCount : p.epoller.fdCount = UInt32.ofNat p.receivers.length
  socket : ∀ entry ∈ p.receivers, entry.2.socketObj.socket = some entry.1

variable {host : Host} {p p' : Proxy} {item : Item} {n : ℕ}

theorem registered_empty : Registered .empty := ⟨rfl, .nil, rfl, by simp [Proxy.empty]⟩

theorem Built.socket {entry : Fd × ReceiverSocket} (hb : Built host n item entry) :
    entry.2.socketObj.socket = some entry.1 := by
  obtain ⟨_, -, rfl⟩ := hb
  rfl

theorem addItem_epoller (h : addItem host p item = .ok p') : p'.epoller =
    ⟨p.epoller.registered ++ [host.socket (p.sockets + item.2.outputAddresses.length)],
      p.epoller.fdCount + 1⟩ := by
  obtain ⟨inputAddress, -, rfl⟩ := (addReceiver_eq_ok host item.1).mp h
  simp [Proxy.withReceiver]

theorem registered_addItem (hr : Registered p) (hinj : Function.Injective host.socket)
    (ho : AllOwned host p) (h : addItem host p item = .ok p') : Registered p' := by
  obtain ⟨-, entry, hb, hreceivers⟩ := addItem_built hinj ho h
  have hepoller := addItem_epoller h
  have hfresh := ho.fresh hinj (Nat.le_add_right p.sockets item.2.outputAddresses.length)
  have hkey : entry.1 = host.socket (p.sockets + item.2.outputAddresses.length) := by
    obtain ⟨_, -, rfl⟩ := hb
    rfl
  rw [← hkey] at hepoller hfresh
  constructor
  · rw [hepoller, hreceivers, hr.registered, List.map_append]
    rfl
  · rw [hreceivers, List.map_append, List.nodup_append]
    refine ⟨hr.nodup, List.nodup_singleton _, ?_⟩
    intro a ha b hb' hab
    obtain ⟨e, he, rfl⟩ := List.mem_map.mp ha
    obtain rfl : b = entry.1 := by simpa using hb'
    have hne := List.lookup_eq_none_iff.mp hfresh e he
    simp [hab] at hne
  · rw [hepoller, hreceivers, hr.fdCount, List.length_append, UInt32.ofNat_add]
    rfl
  · intro e he
    rw [hreceivers] at he
    rcases List.mem_append.mp he with he | he
    · exact hr.socket e he
    · obtain rfl := List.mem_singleton.mp he
      exact hb.socket

theorem registered_construct {lib : Boost} {tree : PTree} (hinj : Function.Injective host.socket)
    (h : construct host lib tree = .ok p) : Registered p := by
  refine (construct_invariant hinj registered_empty ?_ h).2
  intro p item p' ho hr hitem
  exact registered_addItem hr hinj ho hitem

theorem Registered.lookup (hr : Registered p) {fd : Fd} (hfd : fd ∈ p.epoller.registered) :
    ∃ r, p.receivers.lookup fd = some r ∧ r.socketObj.socket = some fd := by
  rw [hr.registered] at hfd
  obtain ⟨entry, hentry, hkey⟩ := List.mem_map.mp hfd
  have hsome : (p.receivers.lookup fd).isSome = true :=
    List.lookup_isSome_iff.mpr ⟨entry, hentry, by simp [hkey]⟩
  obtain ⟨r, hlookup⟩ := Option.isSome_iff_exists.mp hsome
  obtain ⟨front, back, hsplit, -⟩ := List.lookup_eq_some_iff.mp hlookup
  exact ⟨r, hlookup, hr.socket (fd, r) (by simp [hsplit])⟩

/-- The events that a call of `ProcessData` has not handed over yet. -/
def DispatchPc.remaining : DispatchPc → List Fd
  | .idle => []
  | .next evs | .resumeFree _ _ evs | .resumeNew _ _ evs => evs
  | .recordBusy _ _ evs | .createAgain _ _ evs => evs
  | .getFree fd evs | .assignFree _ fd evs | .checkTotal fd evs | .createNew fd evs => fd :: evs
  | .pushWorker _ fd evs | .countWorker _ fd evs | .assignNew _ fd evs => fd :: evs
  | .push fd evs => fd :: evs

/-- The dispatcher with the events it has been given so far, and the receivers that have
been stored in a control slot or pushed to the queue. -/
structure Watched where
  system : System
  given : List Fd
  handed : List Fd

namespace Watched

/-- What a step of `ProcessData` stores, read from the state after it. -/
def stored (s' : System) : DispatchPc → List Fd
  | .assignFree w _ _ | .assignNew w _ _ => ((s'.heap[w]?).bind (·.receiverSocket)).toList
  | .push _ _ => s'.pendingItems.getLast?.toList
  | .idle | .next _ | .getFree _ _ | .resumeFree _ _ _ | .checkTotal _ _ | .createNew _ _ => []
  | .pushWorker _ _ _ | .countWorker _ _ _ | .resumeNew _ _ _ | .recordBusy _ _ _ => []
  | .createAgain _ _ _ => []

def after (t : Watched) (s' : System) : System.Action → Watched
  | .processData evs => { t with system := s', given := t.given ++ evs }
  | .dispatch =>
    { t with system := s', handed := t.handed ++ stored s' t.system.dispatching }
  | .arrive _ _ | .addWorkers _ | .add | .stop | .sweep => { t with system := s' }
  | .thread _ _ | .sendFails _ _ => { t with system := s' }

def step (t : Watched) (a : System.Action) : Option Watched :=
  (t.system.step a).map fun s' => t.after s' a

/-- A dispatcher with `count` free workers on the receivers of `p`. -/
def start (p : Proxy) (count : ℕ) (junk : Junk) : Watched where
  system := .start count
    (fun fd => (p.receivers.lookup fd).map fun r => r.senderSocketList.length) junk
  given := []
  handed := []

/-- `epoll_wait` returns registered descriptors, any number of times each. -/
def EpollBatches (p : Proxy) (_ : Watched) : System.Action → Prop
  | .processData evs => ∀ fd ∈ evs, fd ∈ p.epoller.registered
  | _ => True

instance (p : Proxy) (t : Watched) (a : System.Action) : Decidable (EpollBatches p t a) :=
  match a with
  | .processData evs => inferInstanceAs (Decidable (∀ fd ∈ evs, fd ∈ p.epoller.registered))
  | .arrive _ _ | .dispatch | .addWorkers _ | .add | .stop | .sweep => .isTrue trivial
  | .thread _ _ | .sendFails _ _ => .isTrue trivial

variable {s s' : System} {w k : ℕ} {wk : Worker} {fd : Fd} {f f' : Feed}

theorem isSome_update (hf : s.receivers fd = some f) (fd' : Fd) :
    (Function.update s.receivers fd (some f') fd').isSome = (s.receivers fd').isSome := by
  by_cases h : fd' = fd
  · subst h
    simp [hf]
  · rw [Function.update_of_ne h]

/-- What the rest of the program leaves of the thread in `ProcessData`. -/
structure Undisturbed (s s' : System) : Prop where
  dispatching : s'.dispatching = s.dispatching
  receivers : ∀ fd, (s'.receivers fd).isSome = (s.receivers fd).isSome
  fault : s.fault = none → s'.fault ≠ some .receiverNotFound

theorem undisturbed_run {pc : RunPc} (hm : System.RunMove s w wk k pc s') :
    Undisturbed s s' := by
  cases hm with
  | invalid fd len f f' hf | emptyDatagram fd len f f' hf =>
    exact ⟨rfl, isSome_update hf, fun h => by simp [h]⟩
  | received fd len f f' count hf => exact ⟨rfl, isSome_update hf, fun h => by simp [h]⟩
  | send fd f count i hf => exact ⟨rfl, isSome_update hf, fun h => by simp [h]⟩
  | unset _ => exact ⟨rfl, fun _ => rfl, fun _ => by simp⟩
  | popEmpty _ => exact ⟨rfl, fun _ => rfl, fun _ => by simp⟩
  | _ => exact ⟨rfl, fun _ => rfl, fun h => by simp [h]⟩

theorem getElem?_put_self (hw : s.heap[w]? = some wk) (wk' : Worker) :
    (s.heap.set w wk')[w]? = some wk' :=
  List.getElem?_set_self (List.getElem?_eq_some_iff.mp hw).1

/-- A step of `ProcessData` hands over the first of the remaining events, or none. -/
theorem hands_over {pc : DispatchPc} (hm : System.DispatchMove s pc s')
    (hfound : ∀ fd ∈ pc.remaining, (s.receivers fd).isSome = true) :
    s'.receivers = s.receivers ∧ s'.fault = s.fault ∧
      pc.remaining = stored s' pc ++ s'.dispatching.remaining := by
  cases hm with
  | notFound fd evs hnone => simp [DispatchPc.remaining, hnone] at hfound
  | assignFree w fd evs wk hw =>
    simp [DispatchPc.remaining, stored, getElem?_put_self hw]
  | assignNew w fd evs wk hw =>
    simp [DispatchPc.remaining, stored, getElem?_put_self hw]
  | push fd evs => simp [DispatchPc.remaining, stored]
  | _ => exact ⟨rfl, rfl, rfl⟩

structure Ready (p : Proxy) (t : Watched) : Prop where
  found : ∀ fd ∈ p.epoller.registered, (t.system.receivers fd).isSome = true
  given : ∀ fd ∈ t.given, fd ∈ p.epoller.registered
  handed : t.given = t.handed ++ t.system.dispatching.remaining
  fault : t.system.fault ≠ some .receiverNotFound

variable {t t' : Watched} {count : ℕ} {junk : Junk}

theorem ready_start (hr : Registered p) : Ready p (start p count junk) where
  found fd hfd := by
    obtain ⟨r, hlookup, -⟩ := hr.lookup hfd
    simp [start, System.start, hlookup]
  given := by simp [start]
  handed := rfl
  fault := by simp [start, System.start]

theorem Ready.undisturbed (hi : Ready p t) (hf : t.system.fault = none)
    (hu : Undisturbed t.system s') : Ready p { t with system := s' } where
  found fd hfd := by
    rw [hu.receivers]
    exact hi.found fd hfd
  given := hi.given
  handed := by
    rw [hu.dispatching]
    exact hi.handed
  fault := hu.fault hf

theorem Ready.step {a : System.Action} (hi : Ready p t) (hg : EpollBatches p t a)
    (hs : t.step a = some t') : Ready p t' := by
  obtain ⟨s', hs', rfl⟩ := Option.map_eq_some_iff.mp hs
  obtain ⟨hnone, hm⟩ := System.step_move hs'
  cases hm with
  | arrive fd d f hf =>
    exact hi.undisturbed hnone ⟨rfl, isSome_update hf, fun h => by simp [h]⟩
  | processData evs hidle =>
    have hhanded := hi.handed
    simp only [hidle, DispatchPc.remaining, List.append_nil] at hhanded
    refine ⟨hi.found, ?_, ?_, by simp [after, hnone]⟩
    · intro fd hfd
      rcases List.mem_append.mp hfd with hfd | hfd
      · exact hi.given fd hfd
      · exact hg fd hfd
    · simp [after, hhanded, DispatchPc.remaining]
  | dispatch pc _ hpc hmove =>
    subst hpc
    have hhanded := hi.handed
    obtain ⟨hreceivers, hfault, hsplit⟩ := hands_over hmove fun fd hfd => by
      apply hi.found fd (hi.given fd _)
      rw [hhanded]
      exact List.mem_append_right _ hfd
    rw [hsplit] at hhanded
    refine ⟨?_, hi.given, ?_, ?_⟩
    · intro fd hfd
      simp only [after, hreceivers]
      exact hi.found fd hfd
    · simp only [after, hhanded, List.append_assoc]
    · simp [after, hfault, hnone]
  | addWorkers count _ => exact hi.undisturbed hnone ⟨rfl, fun _ => rfl, fun h => by simp [h]⟩
  | add pc _ _ hmove =>
    apply hi.undisturbed hnone
    cases hmove <;> exact ⟨rfl, fun _ => rfl, fun h => by simp [h]⟩
  | stop _ => exact hi.undisturbed hnone ⟨rfl, fun _ => rfl, fun h => by simp [h]⟩
  | sweep pc _ _ hmove =>
    apply hi.undisturbed hnone
    cases hmove <;> exact ⟨rfl, fun _ => rfl, fun h => by simp [h]⟩
  | thread w k wk pc _ _ _ hmove => exact hi.undisturbed hnone (undisturbed_run hmove)
  | sendFails w k => exact hi.undisturbed hnone ⟨rfl, fun _ => rfl, fun _ => by simp⟩

/-- What becomes of the events given so far: each found its receiver, in order, and all of
them have by the end of the batch. -/
structure Dispatched (p : Proxy) (t : Watched) : Prop where
  found : t.system.fault ≠ some .receiverNotFound
  inOrder : t.given = t.handed ++ t.system.dispatching.remaining
  complete : t.system.dispatching = .idle → t.handed = t.given
  receiver : ∀ fd ∈ t.handed, ∃ r, p.receivers.lookup fd = some r ∧ r.socketObj.socket = some fd

theorem Ready.dispatched (hr : Registered p) (hi : Ready p t) : Dispatched p t where
  found := hi.fault
  inOrder := hi.handed
  complete := by
    intro hidle
    have hhanded := hi.handed
    rw [hidle] at hhanded
    simpa [DispatchPc.remaining] using hhanded.symm
  receiver fd hfd := by
    apply hr.lookup (hi.given fd _)
    rw [hi.handed]
    exact List.mem_append_left _ hfd

end Watched

/-- **Every readiness event has its receiver**: after an accepted configuration the three
structures agree, and in every run on batches of registered descriptors each event of each
batch is handed over on the receiver that has its descriptor. -/
theorem every_event_has_receiver {lib : Boost} {tree : PTree}
    (hinj : Function.Injective host.socket) (h : construct host lib tree = .ok p) :
    Registered p ∧ ∀ (count : ℕ) (junk : Junk) (t : Watched),
      Reaches Watched.step (Watched.EpollBatches p) (Watched.start p count junk) t →
        Watched.Dispatched p t := by
  have hr := registered_construct hinj h
  refine ⟨hr, fun count junk t ht => ?_⟩
  apply Watched.Ready.dispatched hr
  apply ht.invariant (I := Watched.Ready p) (Watched.ready_start hr)
  intro t a t' hi hg hs
  exact hi.step hg hs

/-- Three events on two receivers. -/
theorem every_event_has_receiver_two_routes : ∃ p t,
    construct (localHost false) .plain twoRoutes = .ok p ∧
    Reaches Watched.step (Watched.EpollBatches p) (Watched.start p 5 .zeroed) t ∧
    t.handed = [8, 5, 8] ∧ Registered p ∧ Watched.Dispatched p t := by
  have hinj := localHost_socket_injective false
  obtain ⟨p, h, t, ht, hhanded⟩ : ∃ p, construct (localHost false) .plain twoRoutes = .ok p ∧
      ∃ t, Reaches Watched.step (Watched.EpollBatches p) (Watched.start p 5 .zeroed) t ∧
        t.handed = [8, 5, 8] :=
    ⟨_, rfl, exists_reaches_of_runChecked
      (.processData [8, 5, 8] :: List.replicate 13 .dispatch) (by decide)⟩
  obtain ⟨hr, hall⟩ := every_event_has_receiver hinj h
  exact ⟨p, t, h, ht, hhanded, hr, hall 5 _ t ht⟩

end MddProxy
