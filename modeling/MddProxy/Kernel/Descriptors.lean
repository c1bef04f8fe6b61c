import Mathlib.Data.List.Nodup
import Mathlib.Data.List.Perm.Subperm
import Mathlib.Tactic.Common

/-!
# Descriptor tables

The open descriptors of a process, each with what it stands for. A new descriptor gets the
lowest number that is not in use, so a number that has been closed is given again; closing a
number that is not in use changes nothing.
-/
namespace Descriptors

variable {ω : Type*}

structure Table (ω : Type*) where
  entries : List (ℕ × ω)
  nodup : (entries.map Prod.fst).Nodup

namespace Table

variable (t : Table ω)

/-- What a number stands for, if it is in use. -/
def owner (fd : ℕ) : Option ω := t.entries.lookup fd

def fresh : ℕ :=
  ((List.range (t.entries.length + 1)).find? fun fd => (t.owner fd).isNone).getD 0

theorem owner_eq_none_iff {fd : ℕ} : t.owner fd = none ↔ fd ∉ t.entries.map Prod.fst := by
  rw [owner, List.lookup_eq_none_iff]
  constructor
  · intro h hmem
    obtain ⟨e, he, rfl⟩ := List.mem_map.mp hmem
    simpa using h e he
  · intro h e he
    rw [bne_iff_ne]
    rintro rfl
    exact h (List.mem_map_of_mem he)

theorem exists_unused : ∃ fd ∈ List.range (t.entries.length + 1), (t.owner fd).isNone = true := by
  by_contra hall
  have hused : List.range (t.entries.length + 1) ⊆ t.entries.map Prod.fst := by
    intro fd hfd
    by_contra hmem
    exact hall ⟨fd, hfd, by rw [Option.isNone_iff_eq_none]; exact t.owner_eq_none_iff.mpr hmem⟩
  have hle := (List.nodup_range.subperm hused).length_le
  rw [List.length_range, List.length_map] at hle
  omega

theorem fresh_spec : t.owner t.fresh = none ∧ ∀ fd < t.fresh, (t.owner fd).isSome = true := by
  obtain ⟨fd, hfd⟩ := Option.isSome_iff_exists.mp (List.find?_isSome.mpr t.exists_unused)
  have hfresh : t.fresh = fd := by rw [fresh, hfd]; rfl
  obtain ⟨hnone, -, hlower⟩ := List.find?_range_eq_some.mp hfd
  rw [hfresh]
  refine ⟨Option.isNone_iff_eq_none.mp hnone, fun m hm => ?_⟩
  simpa using hlower m hm

/-- `fresh` is the only number with this property. -/
theorem fresh_eq {fd : ℕ} (hfree : t.owner fd = none)
    (hlower : ∀ m < fd, (t.owner m).isSome = true) : t.fresh = fd := by
  obtain ⟨hnone, hbelow⟩ := t.fresh_spec
  apply Nat.le_antisymm
  · by_contra hlt
    have hused := hbelow fd (by omega)
    rw [hfree] at hused
    cases hused
  · by_contra hlt
    have hused := hlower t.fresh (by omega)
    rw [hnone] at hused
    cases hused

def opened (o : ω) : Table ω where
  entries := (t.fresh, o) :: t.entries
  nodup := List.nodup_cons.mpr ⟨t.owner_eq_none_iff.mp t.fresh_spec.1, t.nodup⟩

/-- `close`, which fails when the number is not in use. -/
def close (fd : ℕ) : Table ω where
  entries := t.entries.filter fun e => e.1 ≠ fd
  nodup := t.nodup.sublist (List.filter_sublist.map _)

theorem owner_opened (o : ω) (fd : ℕ) :
    (t.opened o).owner fd = if fd = t.fresh then some o else t.owner fd := by
  unfold owner opened
  rw [List.lookup_cons]
  by_cases h : fd = t.fresh
  · simp [h]
  · simp [h, beq_eq_false_iff_ne.mpr h]

theorem lookup_filter_ne (entries : List (ℕ × ω)) (fd fd' : ℕ) :
    (entries.filter fun e => e.1 ≠ fd).lookup fd' =
      if fd' = fd then none else entries.lookup fd' := by
  induction entries with
  | nil => simp
  | cons e entries ih =>
    obtain ⟨k, o⟩ := e
    by_cases hk : k = fd
    · by_cases h : fd' = fd
      · simpa [hk, h] using ih
      · simpa [hk, h, List.lookup_cons, beq_eq_false_iff_ne.mpr h] using ih
    · by_cases h : fd' = k
      · simp [h, hk]
      · simpa [hk, List.lookup_cons, beq_eq_false_iff_ne.mpr h] using ih

theorem owner_close (fd fd' : ℕ) :
    (t.close fd).owner fd' = if fd' = fd then none else t.owner fd' :=
  lookup_filter_ne t.entries fd fd'

theorem owner_opened_of_isSome (o : ω) {fd : ℕ} (h : (t.owner fd).isSome = true) :
    (t.opened o).owner fd = t.owner fd := by
  rw [owner_opened, if_neg]
  rintro rfl
  rw [t.fresh_spec.1] at h
  cases h

theorem fresh_close {fd : ℕ} (h : fd < t.fresh) : (t.close fd).fresh = fd := by
  apply fresh_eq
  · rw [owner_close, if_pos rfl]
  · intro m hm
    rw [owner_close, if_neg (Nat.ne_of_lt hm)]
    exact t.fresh_spec.2 m (Nat.lt_trans hm h)

end Table
end Descriptors
