import MddProxy.Management.LogLines

/-!
# The stream of the log

The lines reach the file, one after the other, as long as no flush overlaps another
operation on the stream. `flush` is called without the lock, and one that does overlap can
lose a line.
-/
namespace MddProxy
namespace LogState

open Interleaving

variable {spills : ℕ → ℕ → Bool} {s s' : LogState} {i j : ℕ} {w v : LogWriter}

def Settled (s : LogState) : Prop := ∀ o ∈ s.writers, ∀ v ∈ o, v.pc.midway = none

instance (s : LogState) : Decidable s.Settled := inferInstanceAs (Decidable (∀ _ ∈ _, _))

/-- No operation on the stream starts while another is half done. The lock sees to that for
`write`; `flush` is called without it. -/
def FlushesApart (s : LogState) : Action → Prop
  | .log _ _ => True
  | .advance i => ∀ w ∈ s.writer i, w.pc.startsPut = true → s.Settled

/-- The file and `p` bytes of the put area are the lines, and what there is of the next. -/
def Streams (s : LogState) (p : ℕ) : Prop :=
  p ≤ s.area.length ∧ s.file ++ s.area.take p = s.lines.flatMap LogLine.bytes ++ s.part

structure Streamed (s : LogState) : Prop where
  alone : ∀ i j w v, s.writer i = some w → s.writer j = some v →
    w.pc.midway ≠ none → v.pc.midway ≠ none → i = j
  settled : s.Settled → s.Streams s.pptr
  midway : ∀ i w op, s.writer i = some w → w.pc.midway = some op → s.Streams (op.pptr s.pptr)
  covered : s.pptr ≠ 0 → ∃ i w, s.writer i = some w ∧ (w.pc.locked = true ∨ w.pc.left = true)

theorem Settled.midway (h : s.Settled) (hw : s.writer i = some w) : w.pc.midway = none := by
  obtain ⟨o, ho, hwo⟩ : ∃ o, s.writers[i]? = some o ∧ o = some w := by
    simpa [writer, Option.join_eq_some_iff] using hw
  exact h o (List.mem_of_getElem? ho) w hwo

theorem settled_of_forall (h : ∀ i w, s.writer i = some w → w.pc.midway = none) : s.Settled := by
  intro o ho v hv
  obtain ⟨i, hi⟩ := List.mem_iff_getElem?.mp ho
  exact h i v (by rw [writer, hi]; exact hv)

theorem streamed_start (n : ℕ) (junk : List UInt8) : (start n junk).Streamed := by
  have hnone := writer_start n junk
  constructor
  · exact fun i j w v hw => by simp [hnone] at hw
  · exact fun _ => ⟨le_refl _, rfl⟩
  · exact fun i w op hw => by simp [hnone] at hw
  · exact fun h => absurd rfl h

theorem Streamed.enter {c : LogCall} (hs : s.Streamed) (hidle : s.writers[i]? = some none) :
    (s.enter i c).Streamed := by
  have hold : ∀ j w, (s.enter i c).writer j = some w → w.pc.midway ≠ none → s.writer j = some w := by
    intro j w hw hmid
    rcases enter_writer hidle hw with ⟨-, rfl⟩ | hw
    · exact absurd rfl hmid
    · exact hw
  constructor
  case alone =>
    intro j k w v hw hv hmw hmv
    exact hs.alone j k w v (hold j w hw hmw) (hold k v hv hmv) hmw hmv
  case settled =>
    intro hsettled
    apply hs.settled
    apply settled_of_forall
    intro j w hw
    exact hsettled.midway ((enter_writer_other (ne_of_writer hidle hw)).trans hw)
  case midway =>
    intro j w op hw hmid
    exact hs.midway j w op (hold j w hw (by simp [hmid])) hmid
  case covered =>
    intro hpptr
    obtain ⟨j, w, hw, hin⟩ := hs.covered hpptr
    exact ⟨j, w, (enter_writer_other (ne_of_writer hidle hw)).trans hw, hin⟩

theorem Advanced.before (hm : s.Advanced spills i w s') (hne : j ≠ i)
    (hv : s'.writer j = some v) : ∃ v₀, s.writer j = some v₀ ∧ v₀.pc = v.pc := by
  rw [hm.other j hne] at hv
  obtain ⟨v₀, hv₀, rfl⟩ := Option.map_eq_some_iff.mp hv
  exact ⟨v₀, hv₀, (disturb_same _ _).2.symm⟩

theorem Advanced.after (hm : s.Advanced spills i w s') (hne : j ≠ i)
    (hv : s.writer j = some v) : ∃ v', s'.writer j = some v' ∧ v'.pc = v.pc :=
  ⟨_, by rw [hm.other j hne, hv]; rfl, (disturb_same _ _).2⟩

variable (spills s i) in
theorem effect_streams (hstarts : w.pc.startsPut = false) (hmid : w.pc.midway = none) :
    (s.effect spills i w).pptr = s.pptr ∧
    ∀ p, (s.effect spills i w).Streams p ↔ s.Streams p := by
  cases hpc : w.pc <;> simp only [hpc, LinePc.startsPut, LinePc.midway, reduceCtorEq] at hstarts hmid <;>
    simp only [effect, hpc]
  case localtime =>
    unfold setNowtm
    split <;> exact ⟨rfl, fun _ => Iff.rfl⟩
  case strftime =>
    unfold setTmbuf
    split <;> exact ⟨rfl, fun _ => Iff.rfl⟩
  case leave =>
    refine ⟨trivial, fun p => ?_⟩
    simp [Streams]
  case sprintf | vsnprintf | getLogger => exact ⟨trivial, fun _ => Iff.rfl⟩
  all_goals exact ⟨trivial, fun _ => trivial⟩

theorem next_unstarted {pc : LinePc} (hstarts : w.pc.startsPut = false)
    (hnext : s.next spills w = some pc) : pc.midway = none := by
  cases hpc : w.pc <;> simp only [hpc, LinePc.startsPut, reduceCtorEq] at hstarts <;>
    simp only [next, hpc, Option.some.injEq, reduceCtorEq] at hnext <;> subst hnext
  case headerStored =>
    split <;> rfl
  all_goals rfl

theorem Streams.write (h : s.Streams s.pptr) (bytes : List UInt8) :
    (s.write spills bytes).Streams ((s.putOp spills bytes).pptr s.pptr) := by
  obtain ⟨hbound, htext⟩ := h
  cases hspills : spills s.pptr bytes.length with
  | true =>
    simp only [Streams, LogState.write, putOp, hspills, if_true, PutOp.pptr, List.take_zero,
      List.append_nil]
    refine ⟨Nat.zero_le _, ?_⟩
    rw [htext, List.append_assoc]
  | false =>
    have hstored : (s.area.take s.pptr ++ bytes).length = s.pptr + bytes.length := by
      rw [List.length_append, List.length_take, Nat.min_eq_left hbound]
    simp only [Streams, LogState.write, putOp, hspills, PutOp.pptr, Bool.false_eq_true, if_false]
    constructor
    · rw [List.length_append, hstored]
      exact Nat.le_add_right _ _
    · rw [← hstored, List.take_left, ← List.append_assoc, htext, List.append_assoc]

variable (spills i) in
/-- The first half of an operation on the stream, and what is still to come. -/
theorem Streams.starts (h : s.Streams s.pptr) (hstarts : w.pc.startsPut = true) :
    ∃ pc op, s.next spills w = some pc ∧ pc.midway = some op ∧
      (s.effect spills i w).Streams (op.pptr s.pptr) ∧
      (s.effect spills i w).pptr = s.pptr := by
  cases hpc : w.pc <;> simp only [hpc, LinePc.startsPut, reduceCtorEq] at hstarts <;>
    simp only [next, effect, hpc]
  case writeHeader => exact ⟨_, _, rfl, rfl, h.write _, rfl⟩
  case writeBody => exact ⟨_, _, rfl, rfl, h.write _, rfl⟩
  case newline => exact ⟨_, _, rfl, rfl, h.write _, rfl⟩
  case flush =>
    refine ⟨_, _, rfl, rfl, ⟨Nat.zero_le _, ?_⟩, trivial⟩
    simpa [PutOp.pptr] using h.2

variable (spills i) in
theorem Streams.ends {op : PutOp} (h : s.Streams (op.pptr s.pptr)) (hmid : w.pc.midway = some op) :
    (s.effect spills i w).pptr = op.pptr s.pptr ∧ (s.effect spills i w).Streams (op.pptr s.pptr) := by
  cases hpc : w.pc <;> simp only [hpc, LinePc.midway, Option.some.injEq, reduceCtorEq] at hmid <;>
    subst hmid <;> simp only [effect, hpc]
  case flushed => exact ⟨rfl, h⟩
  all_goals exact ⟨trivial, h⟩

theorem midway_startsPut {op : PutOp} (hmid : w.pc.midway = some op) : w.pc.startsPut = false := by
  cases hpc : w.pc <;> simp [hpc, LinePc.midway, LinePc.startsPut] at hmid ⊢

theorem Advanced.nobody (hm : s.Advanced spills i w s')
    (hmine : ∀ pc, s.next spills w = some pc → pc.midway = none)
    (hother : ∀ j v, j ≠ i → s.writer j = some v → v.pc.midway = none) :
    ∀ j v, s'.writer j = some v → v.pc.midway = none := by
  intro j v hv
  by_cases hj : j = i
  · subst hj
    obtain ⟨pc, hnext, rfl⟩ := Option.map_eq_some_iff.mp (hm.mine.symm.trans hv)
    exact hmine pc hnext
  · obtain ⟨v₀, hv₀, hpc⟩ := hm.before hj hv
    exact hpc ▸ hother j v₀ hj hv₀

theorem Advanced.stream (hm : s.Advanced spills i w s') :
    s'.pptr = (s.effect spills i w).pptr ∧
    ∀ p, s'.Streams p ↔ (s.effect spills i w).Streams p := by
  rw [hm.eq]
  exact ⟨rfl, fun _ => Iff.rfl⟩

theorem Streamed.covered_step (hs : s.Streamed) (hw : s.writer i = some w)
    (hm : s.Advanced spills i w s') :
    s'.pptr ≠ 0 → ∃ j v, s'.writer j = some v ∧ (v.pc.locked = true ∨ v.pc.left = true) := by
  intro hpptr
  have hmoved := hm.stream.1
  by_cases hout : w.pc = .localtime ∨ w.pc = .strftime ∨ w.pc = .sprintf
  · have hstarts : w.pc.startsPut = false := by rcases hout with h | h | h <;> rw [h] <;> rfl
    have hmid : w.pc.midway = none := by rcases hout with h | h | h <;> rw [h] <;> rfl
    have hsame := (effect_streams spills s i hstarts hmid).1
    obtain ⟨j, v, hv, hin⟩ := hs.covered (by rwa [hmoved, hsame] at hpptr)
    have hne : j ≠ i := by
      rintro rfl
      obtain rfl := Option.some.inj (hw.symm.trans hv)
      rcases hout with h | h | h <;> simp [h, LinePc.locked, LinePc.left] at hin
    obtain ⟨v', hv', hpc⟩ := hm.after hne hv
    exact ⟨j, v', hv', hpc ▸ hin⟩
  · by_cases hret : w.pc = .flushed
    · simp [hmoved, effect, hret] at hpptr
    · obtain ⟨pc, hnext, hin⟩ : ∃ pc, s.next spills w = some pc ∧
          (pc.locked = true ∨ pc.left = true) := by
        cases hpc : w.pc <;> simp only [hpc, reduceCtorEq, or_true, or_false,
          not_true_eq_false] at hout hret <;> simp only [next, hpc] <;> refine ⟨_, rfl, ?_⟩
        case leave => exact .inr rfl
        case flush => exact .inr rfl
        case headerStored => left; split <;> rfl
        all_goals exact .inl rfl
      exact ⟨i, { w with pc }, by rw [hm.mine, hnext]; rfl, hin⟩

/-- The second half of an operation: nobody is half way afterwards. -/
theorem Streamed.ends_step {op : PutOp} (hs : s.Streamed) (hw : s.writer i = some w)
    (hm : s.Advanced spills i w s') (hmid : w.pc.midway = some op) : s'.Streamed := by
  obtain ⟨hpptr, hstreams⟩ := hm.stream
  have hnobody : ∀ j v, s'.writer j = some v → v.pc.midway = none := by
    apply hm.nobody
    · exact fun pc hnext => next_unstarted (midway_startsPut hmid) hnext
    · intro j v hne hv
      by_contra hv'
      exact hne (hs.alone j i v w hv hw hv' (by simp [hmid]))
  obtain ⟨hset, hends⟩ := (hs.midway i w op hw hmid).ends spills i hmid
  constructor
  · exact fun j k v u hv _ hmv => absurd (hnobody j v hv) hmv
  · intro _
    rw [hpptr, hset]
    exact (hstreams _).mpr hends
  · exact fun j v op hv hmv => by simp [hnobody j v hv] at hmv
  · exact hs.covered_step hw hm

/-- The first half: the stream was settled, so only this thread is half way afterwards. -/
theorem Streamed.starts_step (hs : s.Streamed) (hw : s.writer i = some w)
    (hm : s.Advanced spills i w s') (hstarts : w.pc.startsPut = true) (hsettled : s.Settled) :
    s'.Streamed := by
  obtain ⟨hpptr, hstreams⟩ := hm.stream
  obtain ⟨pc, op, hnext, hop, hnew, hkept⟩ := (hs.settled hsettled).starts spills i hstarts
  have hmine : s'.writer i = some { w with pc } := by rw [hm.mine, hnext]; rfl
  have honly : ∀ j v, s'.writer j = some v → v.pc.midway ≠ none → j = i := by
    intro j v hv hmv
    by_contra hne
    obtain ⟨v₀, hv₀, hpc⟩ := hm.before hne hv
    exact hmv (hpc ▸ hsettled.midway hv₀)
  constructor
  · exact fun j k v u hv hu hmv hmu => (honly j v hv hmv).trans (honly k u hu hmu).symm
  · intro hafter
    rw [hafter.midway hmine] at hop
    cases hop
  · intro j v op' hv hmv
    obtain rfl := honly j v hv (by simp [hmv])
    obtain rfl := Option.some.inj (hmine.symm.trans hv)
    obtain rfl := Option.some.inj (hop.symm.trans hmv)
    rw [hpptr, hkept]
    exact (hstreams _).mpr hnew
  · exact hs.covered_step hw hm

/-- Elsewhere who is half way stays so. -/
theorem Streamed.untouched_step (hs : s.Streamed) (hw : s.writer i = some w)
    (hm : s.Advanced spills i w s') (hstarts : w.pc.startsPut = false)
    (hmid : w.pc.midway = none) : s'.Streamed := by
  obtain ⟨hpptr, hstreams⟩ := hm.stream
  obtain ⟨hkept, heffect⟩ := effect_streams spills s i hstarts hmid
  have hbefore : ∀ j v, s'.writer j = some v → v.pc.midway ≠ none →
      ∃ v₀, s.writer j = some v₀ ∧ v₀.pc = v.pc := by
    intro j v hv hmv
    by_cases hj : j = i
    · subst hj
      obtain ⟨pc, hnext, rfl⟩ := Option.map_eq_some_iff.mp (hm.mine.symm.trans hv)
      exact absurd (next_unstarted hstarts hnext) hmv
    · exact hm.before hj hv
  constructor
  · intro j k v u hv hu hmv hmu
    obtain ⟨v₀, hv₀, hv₀'⟩ := hbefore j v hv hmv
    obtain ⟨u₀, hu₀, hu₀'⟩ := hbefore k u hu hmu
    exact hs.alone j k v₀ u₀ hv₀ hu₀ (hv₀' ▸ hmv) (hu₀' ▸ hmu)
  · intro hafter
    rw [hpptr, hkept, hstreams, heffect]
    apply hs.settled
    apply settled_of_forall
    intro j v hv
    by_cases hj : j = i
    · subst hj
      obtain rfl := Option.some.inj (hw.symm.trans hv)
      exact hmid
    · obtain ⟨v', hv', hpc⟩ := hm.after hj hv
      exact hpc ▸ hafter.midway hv'
  · intro j v op hv hmv
    obtain ⟨v₀, hv₀, hv₀'⟩ := hbefore j v hv (by simp [hmv])
    rw [hpptr, hkept, hstreams, heffect]
    exact hs.midway j v₀ op hv₀ (hv₀' ▸ hmv)
  · exact hs.covered_step hw hm

theorem Streamed.advance (hs : s.Streamed) (hw : s.writer i = some w)
    (hm : s.Advanced spills i w s') (hapart : w.pc.startsPut = true → s.Settled) :
    s'.Streamed := by
  cases hmid : w.pc.midway with
  | some op => exact hs.ends_step hw hm hmid
  | none =>
    cases hstarts : w.pc.startsPut with
    | true => exact hs.starts_step hw hm hstarts (hapart hstarts)
    | false => exact hs.untouched_step hw hm hstarts hmid

theorem Streamed.step {a : Action} (hs : s.Streamed) (hok : s.FlushesApart a)
    (h : step spills s a = some s') : s'.Streamed := by
  cases a with
  | log i c =>
    simp only [LogState.step, Option.ite_none_right_eq_some, Option.some.injEq] at h
    obtain ⟨hidle, rfl⟩ := h
    exact hs.enter hidle
  | advance i =>
    obtain ⟨w, hw, h⟩ := Option.bind_eq_some_iff.mp h
    exact hs.advance hw (advance_advanced hw h) (hok w hw)

/-- Every call fits, and no flush overlaps another operation on the stream. -/
def Tidy (s : LogState) (a : Action) : Prop := s.CallsFit a ∧ s.FlushesApart a

def Idle (s : LogState) : Prop := ∀ o ∈ s.writers, o = none

instance (s : LogState) : Decidable s.Idle := inferInstanceAs (Decidable (∀ _ ∈ _, _))

theorem Idle.writer (h : s.Idle) (i : ℕ) : s.writer i = none := by
  unfold LogState.writer
  cases hi : s.writers[i]? with
  | none => rfl
  | some o => exact h o (List.mem_of_getElem? hi)

/-- **The log is a sequence of whole lines**, in every run of any number of threads whose calls
fit and whose flushes overlap nothing: between two operations on the stream, the file and
what waits in the put area are the lines and the part that the holder of the lock has
written, and once no call is under way, the file is the lines. Each ends in a newline, that of
a call that nobody disturbed is its own, and every call has exactly one, in the order in
which its thread made the calls. -/
theorem log_lines {n : ℕ} {junk : List UInt8}
    (h : Reaches (LogState.step spills) Tidy (start n junk) s) :
    (s.Settled → s.file ++ s.area.take s.pptr = s.lines.flatMap LogLine.bytes ++ s.part) ∧
    (s.owner = none → s.part = []) ∧
    (s.Idle → s.file = s.lines.flatMap LogLine.bytes) ∧
    (∀ ln ∈ s.lines, (∃ text, ln.bytes = text ++ [10]) ∧
      (ln.disturbed = false → ln.bytes = ln.call.line ∧ ln.bytes.length ≤ MAX_LOG_SIZE)) ∧
    ∀ i, s.callsOf i = s.writtenBy i ++ s.unwritten i := by
  have hstreamed : s.Streamed :=
    h.invariant (streamed_start n junk) fun _ _ _ hs hok h => hs.step hok.2 h
  have hfit : Reaches (LogState.step spills) CallsFit (start n junk) s :=
    h.mono fun _ _ hok => hok.1
  obtain ⟨hfree, hlines, hcounted⟩ := lines_whole hfit
  refine ⟨fun hsettled => (hstreamed.settled hsettled).2, hfree, fun hidle => ?_, hlines, hcounted⟩
  have hpptr : s.pptr = 0 := by
    by_contra hne
    obtain ⟨i, w, hw, -⟩ := hstreamed.covered hne
    rw [hidle.writer i] at hw
    cases hw
  have howner : s.owner = none := by
    cases hheld : s.owner with
    | none => rfl
    | some i =>
      obtain ⟨w, hw, -⟩ := (sound_of_reaches hfit).owner i hheld
      rw [hidle.writer i] at hw
      cases hw
  have hsettled : s.Settled := settled_of_forall fun i w hw => by simp [hidle.writer i] at hw
  have hfile := (hstreamed.settled hsettled).2
  rwa [hpptr, hfree howner, List.take_zero, List.append_nil, List.append_nil] at hfile

/-- What `xsputn` of a stream with a buffer of 8192 bytes chooses. -/
def spillsOver (pptr n : ℕ) : Bool := min 1024 (8191 - pptr) ≤ n

/-- A call whose header is `A` and a tab, and whose message is `a`. -/
def callA : LogCall := ⟨[65], [9], some [97], by decide⟩

def callB : LogCall := ⟨[66], [9], some [98], by decide⟩

instance (s : LogState) : DecidablePred (s.CallsFit)
  | .log _ c => inferInstanceAs (Decidable c.Fits)
  | .advance _ => inferInstanceAs (Decidable True)

instance (s : LogState) : DecidablePred (s.FlushesApart)
  | .log _ _ => inferInstanceAs (Decidable True)
  | .advance _ => inferInstanceAs (Decidable (∀ _ ∈ _, _))

instance (s : LogState) : DecidablePred s.Tidy := fun _ => inferInstanceAs (Decidable (_ ∧ _))

/-- Thread 1 formats its header after thread 0 has formatted its message: the line of thread
0 gets the header of thread 1 for a message, that of thread 1 is its own. -/
theorem log_lines_two_threads : ∃ s,
    Reaches (LogState.step spillsOver) Tidy (start 2 (List.replicate 2048 0)) s ∧
    s.lines.map LogLine.bytes = [[65, 9, 66, 9, 10], [66, 9, 98, 10]] ∧
    s.lines.map LogLine.disturbed = [true, false] ∧
    s.file = s.lines.flatMap LogLine.bytes := by
  obtain ⟨s, hs, hbytes, hdisturbed, hidle⟩ : ∃ s,
      Reaches (LogState.step spillsOver) Tidy (start 2 (List.replicate 2048 0)) s ∧
      s.lines.map LogLine.bytes = [[65, 9, 66, 9, 10], [66, 9, 98, 10]] ∧
      s.lines.map LogLine.disturbed = [true, false] ∧ s.Idle :=
    exists_reaches_of_runChecked
      (.log 0 callA :: .log 1 callB :: List.replicate 8 (.advance 0) ++
        List.replicate 3 (.advance 1) ++ List.replicate 8 (.advance 0) ++
        List.replicate 13 (.advance 1)) (by decide +kernel)
  exact ⟨s, hs, hbytes, hdisturbed, (log_lines hs).2.2.1 hidle⟩

/-- Thread 1 makes its whole call between the two halves of the flush of thread 0, but for its
own: nobody disturbed its line, and the file does not have it. -/
theorem lost_line_reachable : ∃ s,
    Reaches (LogState.step spillsOver) CallsFit (start 2 (List.replicate 2048 0)) s ∧ s.Idle ∧
    s.lines.map LogLine.bytes = [callA.line, callB.line] ∧
    s.lines.map LogLine.disturbed = [false, false] ∧ s.file = callA.line :=
  exists_reaches_of_runChecked
    (.log 0 callA :: List.replicate 15 (.advance 0) ++ .log 1 callB ::
      List.replicate 14 (.advance 1) ++ .advance 0 :: List.replicate 2 (.advance 1))
    (by decide +kernel)

end LogState
end MddProxy
