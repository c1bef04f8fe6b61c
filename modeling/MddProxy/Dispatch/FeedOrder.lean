import MddProxy.Dispatch.Worker
import MddProxy.Interleaving.Relay

/-!
# One feed through one buffer

`ReceiveData` copies each datagram into the single buffer of the receiver and
hands that buffer to the senders one after the other. Between two datagrams every
sender has transmitted exactly what was taken; in the middle of a fan-out those
already served are one datagram ahead.
-/
namespace MddProxy
namespace Feed

open Interleaving

variable {f f' : Feed} {sockLen : UInt32} {count i : ℕ}

/-- Every datagram is one that `recvfrom` returns whole and non-empty. -/
def WellSized (f : Feed) : Prop := ∀ d ∈ f.arrived, 1 ≤ d.length ∧ d.length ≤ MAX_PACKET_SIZE

/-- What each sender has transmitted, when those before `i` have got datagram number
`f.taken - 1` and the others have not. -/
def SentUpTo (f : Feed) (i : ℕ) : Prop :=
  f.taken ≤ f.arrived.length ∧ ∀ j t, f.transmitted[j]? = some t →
    t = f.arrived.take (if j < i then f.taken else f.taken - 1)

def Settled (f : Feed) : Prop :=
  f.taken ≤ f.arrived.length ∧ ∀ t ∈ f.transmitted, t = f.arrived.take f.taken

/-- In the fan-out of `count` bytes, about to serve sender `i`. -/
def Relaying (f : Feed) (count i : ℕ) : Prop :=
  f.SentUpTo i ∧ 0 < f.taken ∧ f.arrived[f.taken - 1]? = some (f.buff.take count)

theorem settled_fresh (senders : ℕ) (junk : List UInt8) : (fresh senders junk).Settled :=
  ⟨Nat.le_refl 0, fun t ht => by simpa [fresh] using List.eq_of_mem_replicate ht⟩

theorem wellSized_fresh (senders : ℕ) (junk : List UInt8) : (fresh senders junk).WellSized := by
  simp [WellSized, fresh]

theorem WellSized.arrive {d : Datagram} (hf : f.WellSized)
    (hd : 1 ≤ d.length ∧ d.length ≤ MAX_PACKET_SIZE) : (f.arrive d).WellSized := by
  intro d' hd'
  rcases List.mem_append.mp hd' with hd' | hd'
  · exact hf d' hd'
  · obtain rfl := List.mem_singleton.mp hd'
    exact hd

theorem Settled.arrive (hf : f.Settled) (d : Datagram) : (f.arrive d).Settled := by
  obtain ⟨hle, hall⟩ := hf
  refine ⟨by simp only [Feed.arrive, List.length_append]; omega, fun t ht => ?_⟩
  rw [hall t ht]
  exact (List.take_append_of_le_length hle).symm

theorem SentUpTo.arrive (hf : f.SentUpTo i) (d : Datagram) : (f.arrive d).SentUpTo i := by
  obtain ⟨hle, hall⟩ := hf
  refine ⟨by simp only [Feed.arrive, List.length_append]; omega, fun j t ht => ?_⟩
  rw [hall j t ht]
  have hle' : (if j < i then f.taken else f.taken - 1) ≤ f.arrived.length := by
    split <;> omega
  exact (List.take_append_of_le_length hle').symm

theorem Relaying.arrive (hf : f.Relaying count i) (d : Datagram) :
    (f.arrive d).Relaying count i := by
  obtain ⟨hsent, hpos, hbuff⟩ := hf
  refine ⟨hsent.arrive d, hpos, ?_⟩
  have hlen := (List.getElem?_eq_some_iff.mp hbuff).1
  exact (List.getElem?_append_left hlen).trans hbuff

theorem WellSized.recvfrom_pos (hf : f.WellSized) (h : f.recvfrom sockLen = (.ok count, f')) :
    0 < count := by
  obtain ⟨d, hd, rfl, -⟩ := recvfrom_ok h
  have := hf d (List.mem_of_getElem? hd)
  simp only [MAX_PACKET_SIZE] at *
  omega

theorem WellSized.recvfrom (hf : f.WellSized) (h : f.recvfrom sockLen = (.ok count, f')) :
    f'.WellSized := by
  obtain ⟨d, -, -, rfl⟩ := recvfrom_ok h
  exact hf

theorem Settled.recvfrom (hs : f.Settled) (hf : f.WellSized)
    (h : f.recvfrom sockLen = (.ok count, f')) : f'.Relaying count 0 := by
  obtain ⟨d, hd, rfl, rfl⟩ := recvfrom_ok h
  obtain ⟨-, hmax⟩ := hf d (List.mem_of_getElem? hd)
  have hlen := (List.getElem?_eq_some_iff.mp hd).1
  refine ⟨⟨hlen, fun j t ht => ?_⟩, Nat.succ_pos _, ?_⟩
  · simpa [Feed.dequeue] using hs.2 t (List.mem_of_getElem? ht)
  · simp [Feed.dequeue, Nat.min_eq_left hmax, List.take_of_length_le hmax, hd]

theorem Relaying.sendData (h : f.Relaying count i) :
    (f.sendData i count).Relaying count (i + 1) := by
  obtain ⟨⟨hle, hall⟩, hpos, hbuff⟩ := h
  refine ⟨⟨hle, fun j t ht => ?_⟩, hpos, hbuff⟩
  simp only [Feed.sendData, List.getElem?_modify, Option.map_eq_map,
    Option.map_eq_some_iff] at ht
  obtain ⟨t₀, ht₀, rfl⟩ := ht
  have hj := hall j t₀ ht₀
  simp only [Feed.sendData]
  by_cases hij : i = j
  · subst hij
    rw [if_pos rfl, if_pos (Nat.lt_succ_self i), hj, if_neg (Nat.lt_irrefl i)]
    have htake := List.take_add_one (l := f.arrived) (i := f.taken - 1)
    rw [hbuff, Nat.sub_add_cancel hpos] at htake
    exact htake.symm
  · rw [if_neg hij, hj]
    congr 1
    split <;> split <;> omega

theorem Relaying.settled (h : f.Relaying count i) (hi : f.transmitted.length ≤ i) : f.Settled := by
  obtain ⟨⟨hle, hall⟩, -, -⟩ := h
  refine ⟨hle, fun t ht => ?_⟩
  obtain ⟨j, hj⟩ := List.getElem?_of_mem ht
  have hlen := (List.getElem?_eq_some_iff.mp hj).1
  rw [hall j t hj, if_pos (by omega)]

/-- The feed as a relay: what arrived, and how much each sender has transmitted. -/
def toRelay (f : Feed) : Relay Datagram where
  arrived := f.arrived
  sent := f.transmitted.map List.length

/-- Each sender has transmitted a front part of what arrived. -/
def FrontParts (f : Feed) : Prop := ∀ t ∈ f.transmitted, ∃ n, t = f.arrived.take n

theorem Settled.frontParts (hf : f.Settled) : f.FrontParts := fun t ht => ⟨_, hf.2 t ht⟩

theorem Relaying.frontParts (hf : f.Relaying count i) : f.FrontParts := fun t ht => by
  obtain ⟨j, hj⟩ := List.getElem?_of_mem ht
  exact ⟨_, hf.1.2 j t hj⟩

theorem FrontParts.outputs (hf : f.FrontParts) : f.toRelay.outputs = f.transmitted := by
  rw [toRelay, Relay.outputs, List.map_map]
  refine (List.map_congr_left fun t ht => ?_).trans (List.map_id _)
  obtain ⟨n, rfl⟩ := hf t ht
  simp only [Function.comp_apply, List.length_take, id_eq]
  rcases Nat.le_total n f.arrived.length with hle | hle
  · rw [Nat.min_eq_left hle]
  · rw [Nat.min_eq_right hle, List.take_length, List.take_of_length_le hle]

theorem toRelay_arrive (d : Datagram) :
    f.toRelay.step (.arrive d) = some (f.arrive d).toRelay := rfl

/-- Taking a datagram from the kernel is invisible. -/
theorem toRelay_recvfrom (h : f.recvfrom sockLen = (.ok count, f')) : f'.toRelay = f.toRelay := by
  obtain ⟨d, -, -, rfl⟩ := recvfrom_ok h
  rfl

theorem Relaying.toRelay_sendData (h : f.Relaying count i) (hi : i < f.transmitted.length) :
    f.toRelay.step (.forward i) = some (f.sendData i count).toRelay := by
  obtain ⟨⟨hle, hall⟩, hpos, hbuff⟩ := h
  obtain ⟨t, ht⟩ : ∃ t, f.transmitted[i]? = some t := ⟨_, List.getElem?_eq_getElem hi⟩
  have hlen : t.length = f.taken - 1 := by
    rw [hall i t ht, if_neg (Nat.lt_irrefl i), List.length_take]
    omega
  have hsent : (f.transmitted.map List.length)[i]? = some t.length := by
    rw [List.getElem?_map, ht, Option.map_some]
  have hset : (f.sendData i count).transmitted.map List.length =
      (f.transmitted.map List.length).set i (t.length + 1) := by
    apply List.ext_getElem?
    intro j
    simp only [Feed.sendData, List.getElem?_map, List.getElem?_modify, List.getElem?_set,
      List.length_map]
    by_cases hij : i = j
    · subst hij
      simp [hi, (List.getElem?_eq_some_iff.mp ht).2]
    · simp [hij]
  have hlt : t.length < f.arrived.length := by omega
  rw [Relay.step_forward (r := f.toRelay) hsent hlt]
  exact congrArg some (congrArg (Relay.mk f.arrived) hset.symm)

end Feed
end MddProxy
