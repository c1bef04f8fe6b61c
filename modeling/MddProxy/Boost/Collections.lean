import Mathlib.Data.List.Basic
import Mathlib.Tactic.Common

/-!
# Loops that collect, and maps whose `insert` keeps the first value

A loop over a list that skips some elements and adds the others to an accumulator
is a `mapM` over the elements kept; a loop that may fail succeeds when every step
does. A map built with an `insert` that does not replace answers a lookup with the
first element inserted under the key.
-/
namespace Collections

variable {α β κ σ ε : Type*}

section
universe u
variable {α β : Type u}

theorem bind_eq_ok {x : Except ε α} {f : α → Except ε β} {b : β} :
    (x >>= f) = .ok b ↔ ∃ a, x = .ok a ∧ f a = .ok b := by
  cases x <;> simp [bind, Except.bind]

theorem bind_eq_error {x : Except ε α} {f : α → Except ε β} {e : ε} :
    (x >>= f) = .error e ↔ x = .error e ∨ ∃ a, x = .ok a ∧ f a = .error e := by
  cases x <;> simp [bind, Except.bind]

theorem pure_eq_ok {a b : α} : (pure a : Except ε α) = .ok b ↔ b = a := by
  simp [pure, Except.pure, eq_comm]

theorem throw_ne_ok {e : ε} {a : α} : (throw e : Except ε α) ≠ .ok a := by
  simp [throw, throwThe, MonadExceptOf.throw]

theorem pure_ne_error {a : α} {e : ε} : (pure a : Except ε α) ≠ .error e := nofun

end

theorem foldlM_ne_error {α σ : Type _} {f : σ → α → Except ε σ} {e : ε}
    (hf : ∀ s a, f s a ≠ .error e) {l : List α} {s : σ} : l.foldlM f s ≠ .error e := by
  induction l generalizing s with
  | nil => exact pure_ne_error
  | cons a l ih =>
    rw [List.foldlM_cons, ne_eq, bind_eq_error]
    rintro (h | ⟨s', -, h⟩)
    · exact hf s a h
    · exact ih h

theorem foldlM_invariant {α σ : Type _} {f : σ → α → Except ε σ} {I : σ → Prop}
    (hstep : ∀ s a s', I s → f s a = .ok s' → I s') {l : List α} {s s' : σ} (h₀ : I s)
    (h : l.foldlM f s = .ok s') : I s' := by
  induction l generalizing s with
  | nil =>
    rw [pure_eq_ok.mp h]
    exact h₀
  | cons a l ih =>
    rw [List.foldlM_cons] at h
    obtain ⟨s₁, ha, hl⟩ := bind_eq_ok.mp h
    exact ih (hstep s a s₁ h₀ ha) hl

theorem foldlM_collect {m : Type _ → Type _} [Monad m] [LawfulMonad m] {α : Type _}
    {β σ : Type _} (p : α → Bool) (f : α → m β) (g : σ → β → σ) (l : List α) (acc : σ) :
    l.foldlM (fun acc a => if p a = true then g acc <$> f a else pure acc) acc =
      (fun bs => bs.foldl g acc) <$> (l.filter p).mapM f := by
  induction l generalizing acc with
  | nil => simp
  | cons a l ih =>
    by_cases h : p a = true
    · simp [h, ih, List.mapM_cons]
    · simp [h, ih]

theorem mapM_map_comm {m : Type _ → Type _} [Monad m] [LawfulMonad m] {α : Type _}
    {β γ : Type _} (f : α → m β) (g : β → γ) (l : List α) :
    l.mapM (fun a => g <$> f a) = List.map g <$> l.mapM f := by
  induction l with
  | nil => simp
  | cons a l ih => simp [List.mapM_cons, ih]

theorem mapM_of_forall₂ {α : Type _} {β : Type _} {f : α → Except ε β} {r : α → β → Prop}
    {l : List α} {bs : List β} (hf : ∀ a b, r a b → f a = .ok b) (h : List.Forall₂ r l bs) :
    l.mapM f = .ok bs := by
  induction h with
  | nil => rfl
  | cons hab _ ih =>
    rw [List.mapM_cons, hf _ _ hab, ih]
    rfl

theorem foldlM_flatMap {m : Type _ → Type _} [Monad m] [LawfulMonad m] {α β : Type _}
    {σ : Type _} (f : α → List β) (step : σ → β → m σ) (l : List α) (s : σ) :
    (l.flatMap f).foldlM step s = l.foldlM (fun s a => (f a).foldlM step s) s := by
  induction l generalizing s with
  | nil => simp
  | cons a l ih => simp [List.flatMap_cons, ih]

theorem foldl_push (l : List β) (acc : List β) :
    l.foldl (fun acc b => acc ++ [b]) acc = acc ++ l := by
  induction l generalizing acc with
  | nil => simp
  | cons b l ih => simp [ih]

theorem foldl_toList (f : α → Option β) (l : List α) (acc : List β) :
    l.foldl (fun acc a => acc ++ (f a).toList) acc = acc ++ l.filterMap f := by
  induction l generalizing acc with
  | nil => simp
  | cons a l ih => cases h : f a <;> simp [h, ih]

theorem exists_left_of_forall₂ {r : α → β → Prop} {l : List α} {u : List β}
    (h : List.Forall₂ r l u) {b : β} (hb : b ∈ u) : ∃ a ∈ l, r a b := by
  induction h with
  | nil => cases hb
  | @cons a b' l u hab _ ih =>
    rcases List.mem_cons.mp hb with rfl | hb
    · exact ⟨a, List.mem_cons_self, hab⟩
    · obtain ⟨a', ha', h'⟩ := ih hb
      exact ⟨a', List.mem_cons_of_mem a ha', h'⟩

theorem forall₂_zip {γ : Type*} {r : α → β → Prop} {q : γ → Prop} {l : List α} {u : List β}
    {v : List γ} (h : List.Forall₂ r l u) (hlen : v.length = u.length) (hq : ∀ c ∈ v, q c) :
    List.Forall₂ (fun a x => r a x.1 ∧ q x.2) l (u.zip v) := by
  induction h generalizing v with
  | nil => exact .nil
  | cons hab _ ih =>
    cases v with
    | nil => cases hlen
    | cons c v =>
      obtain ⟨hc, hv⟩ := List.forall_mem_cons.mp hq
      exact .cons ⟨hab, hc⟩ (ih (Nat.succ.inj hlen) hv)

theorem forall₂_iff_forall_left {r r' : α → β → Prop} {q : α → Prop} {l : List α} {u : List β}
    (h : List.Forall₂ r l u) (hrq : ∀ a b, r a b → (r' a b ↔ q a)) :
    List.Forall₂ r' l u ↔ ∀ a ∈ l, q a := by
  induction h with
  | nil => simp
  | cons hab _ ih => rw [List.forall₂_cons, List.forall_mem_cons, hrq _ _ hab, ih]

/-- `insert` of `std::map` and `boost::unordered_map`, entries in order of insertion. -/
def insert [DecidableEq κ] (m : List (κ × α)) (k : κ) (a : α) : List (κ × α) :=
  if (m.lookup k).isSome = true then m else m ++ [(k, a)]

section
variable [DecidableEq κ] {m : List (κ × α)} {k k' : κ} {a : α}

theorem insert_of_lookup_eq_none (h : m.lookup k = none) : insert m k a = m ++ [(k, a)] := by
  simp [insert, h]

theorem mem_of_mem_insert {e : κ × α} (h : e ∈ insert m k a) : e ∈ m ∨ e = (k, a) := by
  unfold insert at h
  split at h
  · exact .inl h
  · simpa using h

theorem lookup_append (m m' : List (κ × α)) (k : κ) :
    (m ++ m').lookup k = (m.lookup k).or (m'.lookup k) := by
  induction m with
  | nil => simp
  | cons e m ih =>
    obtain ⟨k₀, a₀⟩ := e
    by_cases h : k = k₀
    · subst h
      simp
    · simp [List.lookup_cons, beq_eq_false_iff_ne.mpr h, ih]

theorem lookup_insert :
    (insert m k a).lookup k' = (m.lookup k').or (if k' = k then some a else none) := by
  unfold insert
  by_cases h : (m.lookup k).isSome = true
  · rw [if_pos h]
    by_cases hk : k' = k
    · subst hk
      obtain ⟨b, hb⟩ := Option.isSome_iff_exists.mp h
      simp [hb]
    · simp [hk]
  · rw [if_neg h, lookup_append]
    congr 1
    by_cases hk : k' = k
    · simp [hk]
    · simp [List.lookup_cons, beq_eq_false_iff_ne.mpr hk, hk]

/-- **First wins**: a map filled from a list answers with the first element of the key. -/
theorem lookup_foldl_insert (key : α → κ) (l : List α) (m : List (κ × α)) (k : κ) :
    (l.foldl (fun m a => insert m (key a) a) m).lookup k =
      (m.lookup k).or (l.find? fun a => key a = k) := by
  induction l generalizing m with
  | nil => simp
  | cons a l ih =>
    rw [List.foldl_cons, ih, lookup_insert, Option.or_assoc, List.find?_cons]
    congr 1
    by_cases hk : key a = k
    · simp [hk]
    · simp [hk, Ne.symm hk]

theorem exists_find?_eq_some (key : α → κ) (l : List α) (k : κ) :
    (∃ a, l.find? (fun a => key a = k) = some a) ↔ ∃ a ∈ l, key a = k := by
  rw [← Option.isSome_iff_exists, List.find?_isSome]
  simp

end

end Collections
