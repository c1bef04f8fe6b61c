import MddProxy.Config.Routing

/-!
# Buffer sizes set by commands

`SetSendBufferSize` and `SetRecvBufferSize` walk through the maps `senders` and
`receivers` of the proxy. `AddReceiversFromConfig` fills the second one only: the senders
it creates are reached through the receivers alone.
-/
namespace MddProxy

open PropertyTree Collections

/-- `SenderSocket::SetBufferSize`; `accepted` is the answer of `setsockopt`. -/
def SenderSocket.setBufferSize (accepted : Bool) (newBufferSize : ℕ) (s : SenderSocket) :
    Except Failure SenderSocket :=
  if 0 < newBufferSize then do
    throwIf (accepted = false) "Setting SO_SNDBUF error address %s"
    pure { s with socketBufferSize := newBufferSize }
  else pure s

def ReceiverSocket.setBufferSize (accepted : Bool) (newBufferSize : ℕ) (r : ReceiverSocket) :
    Except Failure ReceiverSocket :=
  if 0 < newBufferSize then do
    throwIf (accepted = false) "Setting SO_RCVBUF error address %s"
    pure { r with socketBufferSize := newBufferSize }
  else pure r

namespace Proxy

/-- The sender object with descriptor `fd` changes, wherever there is a pointer to it. -/
def storeSender (p : Proxy) (fd : Fd) (s : SenderSocket) : Proxy :=
  { p with
    senders := p.senders.map fun e => if e.1 = fd then (fd, s) else e
    receivers := p.receivers.map fun e => (e.1, { e.2 with
      senderSocketList := e.2.senderSocketList.map fun s' =>
        if s'.socketObj.socket = some fd then s else s' }) }

def setSendBufferSize (accepted : Fd → Bool) (newBufferSize : ℕ) (p : Proxy) :
    Except Failure Proxy :=
  p.senders.foldlM (fun p e => do
    let s ← e.2.setBufferSize (accepted e.1) newBufferSize
    pure (p.storeSender e.1 s)) p

def setRecvBufferSize (accepted : Fd → Bool) (newBufferSize : ℕ) (p : Proxy) :
    Except Failure Proxy := do
  let receivers ← p.receivers.mapM fun e => do
    let r ← e.2.setBufferSize (accepted e.1) newBufferSize
    pure (e.1, r)
  pure { p with receivers }

end Proxy

/-- A call of one of the two, with the answers of `setsockopt` during it. -/
inductive BufferCommand where
  | setSendBufferSize (newBufferSize : ℕ) (accepted : Fd → Bool)
  | setRecvBufferSize (newBufferSize : ℕ) (accepted : Fd → Bool)

namespace BufferCommand

def perform (p : Proxy) : BufferCommand → Except Failure Proxy
  | setSendBufferSize n accepted => p.setSendBufferSize accepted n
  | setRecvBufferSize n accepted => p.setRecvBufferSize accepted n

def lastSend : List BufferCommand → Option ℕ
  | [] => none
  | setSendBufferSize n _ :: commands => (lastSend commands).or (if 0 < n then some n else none)
  | setRecvBufferSize _ _ :: commands => lastSend commands

def lastRecv : List BufferCommand → Option ℕ
  | [] => none
  | setSendBufferSize _ _ :: commands => lastRecv commands
  | setRecvBufferSize n _ :: commands => (lastRecv commands).or (if 0 < n then some n else none)

end BufferCommand

open BufferCommand

/-- Every socket created is there with the last size set for its kind, or the one that
`Create` read for its descriptor. -/
structure BufferSizes (host : Host) (commands : List BufferCommand) (p : Proxy) : Prop where
  created : AllOwned host p
  receivers : ∀ e ∈ p.receivers, ∀ n, e.2.socketObj.socket = some (host.socket n) →
    e.2.socketBufferSize = (lastRecv commands).getD (host.bufferSize n)
  senders : ∀ e ∈ p.receivers, ∀ s ∈ e.2.senderSocketList, ∀ n,
    s.socketObj.socket = some (host.socket n) →
      s.socketBufferSize = (lastSend commands).getD (host.bufferSize n)

variable {host : Host} {p p' : Proxy} {commands : List BufferCommand} {accepted : Fd → Bool}
  {n : ℕ}

/-- An entry of `receivers` with another buffer size, if one is given. -/
def resize (size : Option ℕ) (e : Fd × ReceiverSocket) : Fd × ReceiverSocket :=
  (e.1, { e.2 with socketBufferSize := size.getD e.2.socketBufferSize })

theorem resize_none : resize none = id := rfl

theorem resize_resize (a b : Option ℕ) (e : Fd × ReceiverSocket) :
    resize a (resize b e) = resize (a.or b) e := by
  cases a <;> rfl

theorem ReceiverSocket.setBufferSize_eq_ok {accepted : Bool} {r r' : ReceiverSocket} {fd : Fd}
    (h : r.setBufferSize accepted n = .ok r') :
    (fd, r') = resize (if 0 < n then some n else none) (fd, r) := by
  unfold ReceiverSocket.setBufferSize at h
  split at h
  case isTrue hpos =>
    obtain ⟨-, -, h⟩ := bind_eq_ok.mp h
    rw [pure_eq_ok.mp h, if_pos hpos]
    rfl
  case isFalse hzero =>
    rw [pure_eq_ok.mp h, if_neg hzero]
    rfl

theorem mapM_resize {l l' : List (Fd × ReceiverSocket)}
    (h : (l.mapM fun e => do
      let r ← e.2.setBufferSize (accepted e.1) n
      pure (e.1, r)) = Except.ok l') : l' = l.map (resize (if 0 < n then some n else none)) := by
  induction l generalizing l' with
  | nil => exact pure_eq_ok.mp h
  | cons e l ih =>
    rw [List.mapM_cons] at h
    obtain ⟨e', he, h⟩ := bind_eq_ok.mp h
    obtain ⟨rest, hrest, h⟩ := bind_eq_ok.mp h
    obtain ⟨r, hr, he⟩ := bind_eq_ok.mp he
    rw [pure_eq_ok.mp h, pure_eq_ok.mp he, ih hrest, List.map_cons,
      ReceiverSocket.setBufferSize_eq_ok hr]

theorem setRecvBufferSize_eq_ok (h : p.setRecvBufferSize accepted n = .ok p') :
    p' = { p with receivers := p.receivers.map (resize (if 0 < n then some n else none)) } := by
  obtain ⟨receivers, hreceivers, h⟩ := bind_eq_ok.mp h
  rw [pure_eq_ok.mp h, mapM_resize hreceivers]

theorem setSendBufferSize_eq_ok (hnone : p.senders = [])
    (h : p.setSendBufferSize accepted n = .ok p') : p' = p := by
  rw [Proxy.setSendBufferSize, hnone] at h
  exact pure_eq_ok.mp h

theorem perform_eq_ok (hnone : p.senders = [])
    (h : commands.foldlM BufferCommand.perform p = .ok p') :
    p' = { p with receivers := p.receivers.map (resize (lastRecv commands)) } := by
  induction commands generalizing p with
  | nil => simpa [lastRecv, resize_none] using pure_eq_ok.mp h
  | cons command commands ih =>
    rw [List.foldlM_cons] at h
    obtain ⟨p₁, hcall, hrest⟩ := bind_eq_ok.mp h
    cases command with
    | setSendBufferSize n accepted =>
      rw [setSendBufferSize_eq_ok hnone hcall] at hrest
      exact ih hnone hrest
    | setRecvBufferSize n accepted =>
      have hp₁ := setRecvBufferSize_eq_ok hcall
      have hnone₁ : p₁.senders = [] := by rw [hp₁]; exact hnone
      rw [ih hnone₁ hrest, hp₁]
      simp only [List.map_map, lastRecv]
      congr 1
      exact List.map_congr_left fun e _ => resize_resize _ _ e

theorem senders_withSenders (mappedFeed : InterfaceConfigT) (outputs : List OutputAddressT) :
    (p.withSenders host mappedFeed outputs).senders = p.senders := by
  induction outputs generalizing p with
  | nil => rfl
  | cons output outputs ih => exact ih

theorem senders_addItem {item : Item} (h : addItem host p item = .ok p') :
    p'.senders = p.senders := by
  obtain ⟨inputAddress, -, rfl⟩ := (addReceiver_eq_ok host item.1).mp h
  exact senders_withSenders item.1 item.2.outputAddresses

/-- A socket with the size that `Create` read for its descriptor. -/
def SizeRead (host : Host) (socket : Option Fd) (size : ℕ) : Prop :=
  ∃ n, socket = some (host.socket n) ∧ size = host.bufferSize n

theorem SizeRead.eq (hinj : Function.Injective host.socket) {socket : Option Fd} {size : ℕ}
    (h : SizeRead host socket size) (hn : socket = some (host.socket n)) :
    size = host.bufferSize n := by
  obtain ⟨m, hm, rfl⟩ := h
  rw [hinj (Option.some.inj (hm.symm.trans hn))]

theorem Built.sizesRead {item : Item} {entry : Fd × ReceiverSocket} {m : ℕ}
    (hb : Built host m item entry) :
    SizeRead host entry.2.socketObj.socket entry.2.socketBufferSize ∧
      ∀ s ∈ entry.2.senderSocketList, SizeRead host s.socketObj.socket s.socketBufferSize := by
  obtain ⟨inputAddress, -, rfl⟩ := hb
  refine ⟨⟨_, rfl, rfl⟩, fun s hs => ?_⟩
  obtain ⟨⟨output, k⟩, -, rfl⟩ := List.mem_map.mp hs
  exact ⟨k, rfl, rfl⟩

structure Constructed (host : Host) (p : Proxy) : Prop where
  owned : AllOwned host p
  senders : p.senders = []
  built : ∀ e ∈ p.receivers, ∃ m item, Built host m item e

theorem constructed_empty : Constructed host .empty :=
  ⟨allOwned_empty, rfl, fun _ he => absurd he List.not_mem_nil⟩

theorem Constructed.addItem (hinj : Function.Injective host.socket) {item : Item}
    (hc : Constructed host p) (h : MddProxy.addItem host p item = .ok p') :
    Constructed host p' := by
  obtain ⟨howned, entry, hb, hreceivers⟩ := addItem_built hinj hc.owned h
  refine ⟨howned, (senders_addItem h).trans hc.senders, fun e he => ?_⟩
  rw [hreceivers] at he
  rcases List.mem_append.mp he with he | he
  · exact hc.built e he
  · obtain rfl := List.mem_singleton.mp he
    exact ⟨p.sockets, item, hb⟩

theorem constructed {lib : Boost} {tree : PTree} (hinj : Function.Injective host.socket)
    (h : construct host lib tree = .ok p) : Constructed host p := by
  refine (construct_invariant hinj constructed_empty ?_ h).2
  intro p item p' _ hc hitem
  exact hc.addItem hinj hitem

theorem Constructed.resized (hc : Constructed host p)
    (hp' : p' = { p with receivers := p.receivers.map (resize (lastRecv commands)) })
    (hinj : Function.Injective host.socket)
    (hsend : ∀ size, lastSend commands = some size →
      ∀ e ∈ p.receivers, ∀ s ∈ e.2.senderSocketList, s.socketBufferSize = size) :
    BufferSizes host commands p' := by
  subst hp'
  refine ⟨?_, ?_, ?_⟩
  · have howned := hc.owned
    unfold AllOwned Proxy.descriptors at *
    rw [← howned, List.flatMap_map]
    rfl
  · intro e he n hn
    obtain ⟨e₀, he₀, rfl⟩ := List.mem_map.mp he
    obtain ⟨m, item, hb⟩ := hc.built e₀ he₀
    rw [← hb.sizesRead.1.eq hinj hn]
    rfl
  · intro e he s hs n hn
    obtain ⟨e₀, he₀, rfl⟩ := List.mem_map.mp he
    obtain ⟨m, item, hb⟩ := hc.built e₀ he₀
    cases hlast : lastSend commands with
    | none => exact (hb.sizesRead.2 s hs).eq hinj hn
    | some size => exact hsend size hlast e₀ he₀ s hs

theorem Constructed.unreached (hc : Constructed host p)
    (hp' : p' = { p with receivers := p.receivers.map (resize (lastRecv commands)) })
    (h : BufferSizes host commands p') {size : ℕ} (hlast : lastSend commands = some size) :
    ∀ e ∈ p.receivers, ∀ s ∈ e.2.senderSocketList, s.socketBufferSize = size := by
  subst hp'
  intro e he s hs
  obtain ⟨m, item, hb⟩ := hc.built e he
  obtain ⟨n, hn, -⟩ := hb.sizesRead.2 s hs
  have hsize := h.senders (resize (lastRecv commands) e) (List.mem_map_of_mem he) s hs n hn
  rw [hlast] at hsize
  exact hsize

/-- **Buffer sizes**: commands that all return leave every socket with the last size for its
kind exactly when the senders already had the last one given to `SetSendBufferSize`. -/
theorem buffer_sizes_iff {lib : Boost} {tree : PTree} (hinj : Function.Injective host.socket)
    (h : construct host lib tree = .ok p)
    (hrun : commands.foldlM BufferCommand.perform p = .ok p') :
    BufferSizes host commands p' ↔ ∀ size, lastSend commands = some size →
      ∀ e ∈ p.receivers, ∀ s ∈ e.2.senderSocketList, s.socketBufferSize = size := by
  have hc := constructed hinj h
  have hp' := perform_eq_ok hc.senders hrun
  constructor
  · intro hsizes size hlast
    exact hc.unreached hp' hsizes hlast
  · intro hsend
    exact hc.resized hp' hinj hsend

/-- A receive size is set, and sizes of zero are ignored. -/
theorem buffer_sizes_recv : ∃ p p', construct (localHost false) .plain twoRoutes = .ok p ∧
    BufferSizes (localHost false) [.setSendBufferSize 0 fun _ => true,
      .setRecvBufferSize 4096 fun _ => true, .setRecvBufferSize 0 fun _ => true] p' ∧
    p'.receivers.map (fun e => e.2.socketBufferSize) = [4096, 4096] := by
  have hinj := localHost_socket_injective false
  obtain ⟨p, hp, p', hp', hsizes⟩ : ∃ p, construct (localHost false) .plain twoRoutes = .ok p ∧
      ∃ p', [BufferCommand.setSendBufferSize 0 fun _ => true,
        .setRecvBufferSize 4096 fun _ => true, .setRecvBufferSize 0 fun _ => true].foldlM
          BufferCommand.perform p = .ok p' ∧
        p'.receivers.map (fun e => e.2.socketBufferSize) = [4096, 4096] :=
    ⟨_, rfl, _, rfl, rfl⟩
  exact ⟨p, p', hp, (buffer_sizes_iff hinj hp hp').mpr (by simp [lastSend]), hsizes⟩

/-- A send size of 4096 leaves every sender with the size it had. -/
theorem send_size_not_set : ¬ ∀ (commands : List BufferCommand) (p p' : Proxy),
    construct (localHost false) .plain twoRoutes = .ok p →
    commands.foldlM BufferCommand.perform p = .ok p' →
      BufferSizes (localHost false) commands p' := by
  intro hstated
  have hinj := localHost_socket_injective false
  obtain ⟨p, hp, p', hp', e, he, s, hs, hsize⟩ :
      ∃ p, construct (localHost false) .plain twoRoutes = .ok p ∧
      ∃ p', [BufferCommand.setSendBufferSize 4096 fun _ => true].foldlM
        BufferCommand.perform p = .ok p' ∧
      ∃ e ∈ p.receivers, ∃ s ∈ e.2.senderSocketList, s.socketBufferSize = 212992 :=
    ⟨_, rfl, _, rfl, _, List.mem_cons_self, _, List.mem_cons_self, rfl⟩
  have hc := constructed hinj hp
  have hsame := hc.unreached (perform_eq_ok hc.senders hp') (hstated _ p p' hp hp') rfl e he s hs
  rw [hsize] at hsame
  exact absurd hsame (by decide)

end MddProxy
