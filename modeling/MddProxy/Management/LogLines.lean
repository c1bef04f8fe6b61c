import MddProxy.Management.LogFile

/-!
# The lines of the log

Only the holder of the lock writes, so each call gives one whole line to the stream. The
text of a line is that of its call unless another call formatted into a buffer that it
still relied on.
-/
namespace MddProxy
namespace LogState

open Interleaving

variable {spills : ℕ → ℕ → Bool} {s s' : LogState} {i j : ℕ} {w v : LogWriter} {b : LogBuffer}

/-- The newline of the line has been given to `write`, and the lock not back. -/
def terminated : LinePc → Bool
  | .newlineStored _ | .leave => true
  | _ => false

def callsOf (s : LogState) (i : ℕ) : List LogCall :=
  (s.calls.filter fun e => e.1 = i).map Prod.snd

/-- The calls of a thread whose lines are written, in order. -/
def writtenBy (s : LogState) (i : ℕ) : List LogCall :=
  (s.lines.filter fun ln => ln.thread = i).map LogLine.call

/-- The call of a thread whose line is not written yet. -/
def unwritten (s : LogState) (i : ℕ) : List LogCall :=
  match s.writer i with
  | some w => if w.pc.left then [] else [w.call]
  | none => []

/-- Every call fits the buffers that it is formatted into. -/
def CallsFit (_ : LogState) : Action → Prop
  | .log _ c => c.Fits
  | .advance _ => True

structure Sound (s : LogState) : Prop where
  fits : ∀ i w, s.writer i = some w → w.call.Fits
  locked : ∀ i w, s.writer i = some w → w.pc.locked = true → s.owner = some i
  owner : ∀ i, s.owner = some i → ∃ w, s.writer i = some w ∧ w.pc.locked = true
  free : s.owner = none → s.part = []
  holds : ∀ i w, s.writer i = some w → w.disturbed = false → s.Holds w
  ending : ∀ i w, s.writer i = some w → terminated w.pc = true → ∃ text, s.part = text ++ [10]
  exact : ∀ ln ∈ s.lines, ln.disturbed = false →
    ln.bytes = ln.call.line ∧ ln.bytes.length ≤ MAX_LOG_SIZE
  ended : ∀ ln ∈ s.lines, ∃ text, ln.bytes = text ++ [10]
  counted : ∀ i, s.callsOf i = s.writtenBy i ++ s.unwritten i

theorem writer_start (n : ℕ) (junk : List UInt8) (i : ℕ) : (start n junk).writer i = none := by
  unfold writer start
  rw [List.getElem?_replicate]
  split <;> rfl

theorem sound_start (n : ℕ) (junk : List UInt8) : (start n junk).Sound := by
  have hnone := writer_start n junk
  constructor
  · exact fun i w h => by simp [hnone] at h
  · exact fun i w h => by simp [hnone] at h
  · exact fun i h => by cases h
  · exact fun _ => rfl
  · exact fun i w h => by simp [hnone] at h
  · exact fun i w h => by simp [hnone] at h
  · exact nofun
  · exact nofun
  · intro i
    rw [unwritten, hnone]
    rfl

theorem enter_writer_self {c : LogCall} (hidle : s.writers[i]? = some none) :
    (s.enter i c).writer i = some ⟨c, .localtime, false⟩ := by
  simp [writer, enter, List.getElem?_set_self (List.getElem?_eq_some_iff.mp hidle).1]

theorem enter_writer_other {c : LogCall} (hne : j ≠ i) :
    (s.enter i c).writer j = s.writer j := by
  simp [writer, enter, List.getElem?_set_ne (Ne.symm hne)]

theorem ne_of_writer (hidle : s.writers[i]? = some none) (hw : s.writer j = some w) : j ≠ i := by
  rintro rfl
  simp [writer, hidle] at hw

theorem enter_writer {c : LogCall} (hidle : s.writers[i]? = some none)
    (hw : (s.enter i c).writer j = some w) :
    j = i ∧ w = ⟨c, .localtime, false⟩ ∨ s.writer j = some w := by
  by_cases hj : j = i
  · subst hj
    exact .inl ⟨rfl, Option.some.inj (hw.symm.trans (enter_writer_self hidle))⟩
  · exact .inr (enter_writer_other hj ▸ hw)

theorem Sound.enter {c : LogCall} (hs : s.Sound) (hfits : c.Fits)
    (hidle : s.writers[i]? = some none) : (s.enter i c).Sound := by
  constructor
  case fits =>
    intro j w hw
    rcases enter_writer hidle hw with ⟨-, rfl⟩ | hw
    · exact hfits
    · exact hs.fits j w hw
  case locked =>
    intro j w hw hlocked
    rcases enter_writer hidle hw with ⟨-, rfl⟩ | hw
    · cases hlocked
    · exact hs.locked j w hw hlocked
  case owner =>
    intro j hj
    obtain ⟨w, hw, hlocked⟩ := hs.owner j hj
    exact ⟨w, (enter_writer_other (ne_of_writer hidle hw)).trans hw, hlocked⟩
  case free => exact hs.free
  case holds =>
    intro j w hw hdisturbed
    rcases enter_writer hidle hw with ⟨-, rfl⟩ | hw
    · trivial
    · exact (hs.holds j w hw hdisturbed).congr (fun _ _ => rfl) fun _ => rfl
  case ending =>
    intro j w hw hleave
    rcases enter_writer hidle hw with ⟨-, rfl⟩ | hw
    · cases hleave
    · exact hs.ending j w hw hleave
  case exact => exact hs.exact
  case ended => exact hs.ended
  case counted =>
    intro j
    have hcounted := hs.counted j
    have hwritten : (s.enter i c).writtenBy j = s.writtenBy j := rfl
    by_cases hj : j = i
    · subst hj
      have hcalls : (s.enter j c).callsOf j = s.callsOf j ++ [c] := by simp [callsOf, LogState.enter]
      have hnone : s.writer j = none := by simp [writer, hidle]
      rw [unwritten, hnone, List.append_nil] at hcounted
      rw [hcalls, hwritten, hcounted, unwritten, enter_writer_self hidle]
      rfl
    · have hcalls : (s.enter i c).callsOf j = s.callsOf j := by
        simp [callsOf, LogState.enter, Ne.symm hj]
      rw [hcalls, hwritten, hcounted, unwritten, unwritten, enter_writer_other hj]

theorem effect_owner (hget : w.pc ≠ .getLogger) (hleave : w.pc ≠ .leave) :
    (s.effect spills i w).owner = s.owner := by
  cases hpc : w.pc <;> simp only [effect, hpc, write, ne_eq, not_true_eq_false] at hget hleave ⊢
  case localtime =>
    unfold setNowtm
    split <;> rfl
  case strftime =>
    unfold setTmbuf
    split <;> rfl

theorem effect_lines (hleave : w.pc ≠ .leave) : (s.effect spills i w).lines = s.lines := by
  cases hpc : w.pc <;> simp only [effect, hpc, write, ne_eq, not_true_eq_false] at hleave ⊢
  case localtime =>
    unfold setNowtm
    split <;> rfl
  case strftime =>
    unfold setTmbuf
    split <;> rfl

theorem effect_leave (hleave : w.pc = .leave) : (s.effect spills i w).lines =
    s.lines ++ [{ thread := i, call := w.call, bytes := s.part, disturbed := w.disturbed }] := by
  simp only [effect, hleave]

theorem locked_next {pc : LinePc} (hnext : s.next spills w = some pc) (hlocked : pc.locked = true) :
    w.pc = .getLogger ∨ w.pc.locked = true ∧ w.pc ≠ .leave := by
  cases hpc : w.pc <;> simp only [next, hpc, Option.some.injEq, reduceCtorEq] at hnext <;>
    subst hnext <;> simp_all [LinePc.locked]

theorem next_locked (h : w.pc = .getLogger ∨ w.pc.locked = true ∧ w.pc ≠ .leave) :
    ∃ pc, s.next spills w = some pc ∧ pc.locked = true := by
  cases hpc : w.pc <;> simp [hpc, LinePc.locked] at h <;> simp only [next, hpc] <;>
    refine ⟨_, rfl, ?_⟩ <;> first | rfl | (split <;> rfl)

theorem writer_move_self {pc : Option LinePc} (hw : s.writer i = some v) :
    (s.move i w pc).writer i = pc.map fun pc => { w with pc } := by
  have hlen : i < s.writers.length := by
    by_contra hge
    simp [writer, List.getElem?_eq_none (Nat.le_of_not_lt hge)] at hw
  simp [writer, move, hlen]

theorem writer_move_other {pc : Option LinePc} (hne : j ≠ i) :
    (s.move i w pc).writer j = (s.writer j).map (disturb (w.call.overwrites w.pc)) := by
  simp only [writer, move, List.getElem?_set_ne (Ne.symm hne), List.getElem?_map]
  rcases s.writers[j]? with - | - | v <;> rfl

/-- What a step of the call `w` of thread `i` does. -/
structure Advanced (spills : ℕ → ℕ → Bool) (s : LogState) (i : ℕ) (w : LogWriter) (s' : LogState) : Prop where
  freed : w.pc = .getLogger → s.owner = none
  mine : s'.writer i = (s.next spills w).map fun pc => { w with pc }
  other : ∀ j, j ≠ i → s'.writer j = (s.writer j).map (disturb (w.call.overwrites w.pc))
  read : ∀ b, w.call.overwrites w.pc ≠ some b → s'.read b = s.read b
  part : w.pc.locked = false → s'.part = s.part
  same : w.pc ≠ .getLogger → w.pc ≠ .leave → s'.owner = s.owner
  calls : s'.calls = s.calls
  eq : s' = (s.effect spills i w).move i w (s.next spills w)

theorem advance_advanced (hw : s.writer i = some w) (h : s.advance spills i w = some s') :
    s.Advanced spills i w s' := by
  simp only [LogState.advance, Option.ite_none_left_eq_some, not_and, not_not,
    Option.some.injEq] at h
  obtain ⟨hfreed, rfl⟩ := h
  have hwriters : (s.effect spills i w).writer i = some w := by rw [writer, effect_same.1]; exact hw
  constructor
  · exact hfreed
  · exact writer_move_self hwriters
  · intro j hne
    rw [writer_move_other hne, writer, effect_same.1]
    rfl
  · exact fun b hb => effect_read hb
  · exact fun hout => effect_part hout
  · exact fun hget hleave => effect_owner hget hleave
  · exact effect_same.2
  · rfl

theorem Sound.alone (hs : s.Sound) (hw : s.writer i = some w) (hm : s.Advanced spills i w s')
    (hne : j ≠ i) (hv : s.writer j = some v) (hlocked : v.pc.locked = true) :
    w.pc.locked = false ∧ s'.owner = s.owner := by
  have howner := hs.locked j v hv hlocked
  have hout : w.pc.locked = false := by
    by_contra hin
    have hmine := hs.locked i w hw (by simpa using hin)
    exact hne (Option.some.inj (howner.symm.trans hmine))
  refine ⟨hout, hm.same ?_ ?_⟩
  · intro hget
    simp [hm.freed hget] at howner
  · intro hleave
    simp [hleave, LinePc.locked] at hout

theorem Sound.locked_step (hs : s.Sound) (hw : s.writer i = some w) (hm : s.Advanced spills i w s') :
    ∀ j v, s'.writer j = some v → v.pc.locked = true → s'.owner = some j := by
  intro j v hv hlocked
  by_cases hj : j = i
  · subst hj
    obtain ⟨pc, hnext, rfl⟩ := Option.map_eq_some_iff.mp (hm.mine.symm.trans hv)
    rcases locked_next hnext hlocked with hget | ⟨hin, hleave⟩
    · simp only [hm.eq, effect, hget, move]
    · refine (hm.same ?_ hleave).trans (hs.locked j w hw hin)
      intro hget
      simp [hget, LinePc.locked] at hin
  · rw [hm.other j hj] at hv
    obtain ⟨v₀, hv₀, rfl⟩ := Option.map_eq_some_iff.mp hv
    rw [(disturb_same _ _).2] at hlocked
    rw [(hs.alone hw hm hj hv₀ hlocked).2]
    exact hs.locked j v₀ hv₀ hlocked

theorem Sound.owner_step (hs : s.Sound) (hw : s.writer i = some w) (hm : s.Advanced spills i w s') :
    ∀ j, s'.owner = some j → ∃ v, s'.writer j = some v ∧ v.pc.locked = true := by
  intro j howner
  have hself : w.pc = .getLogger ∨ w.pc.locked = true ∧ w.pc ≠ .leave → j = i →
      ∃ v, s'.writer j = some v ∧ v.pc.locked = true := by
    rintro hin rfl
    obtain ⟨pc, hnext, hlocked⟩ := next_locked hin
    exact ⟨{ w with pc }, by rw [hm.mine, hnext]; rfl, hlocked⟩
  by_cases hget : w.pc = .getLogger
  · have hj : some i = some j := by simpa [hm.eq, effect, hget, move] using howner
    exact hself (.inl hget) (Option.some.inj hj).symm
  · by_cases hleave : w.pc = .leave
    · simp [hm.eq, effect, hleave, move] at howner
    · obtain ⟨v, hv, hlocked⟩ := hs.owner j (hm.same hget hleave ▸ howner)
      by_cases hj : j = i
      · subst hj
        obtain rfl := Option.some.inj (hw.symm.trans hv)
        exact hself (.inr ⟨hlocked, hleave⟩) rfl
      · refine ⟨_, by rw [hm.other j hj, hv]; rfl, ?_⟩
        rw [(disturb_same _ _).2]
        exact hlocked

theorem Sound.free_step (hs : s.Sound) (hw : s.writer i = some w) (hm : s.Advanced spills i w s') :
    s'.owner = none → s'.part = [] := by
  intro howner
  by_cases hget : w.pc = .getLogger
  · simp [hm.eq, effect, hget, move] at howner
  · by_cases hleave : w.pc = .leave
    · simp [hm.eq, effect, hleave, move]
    · have hnone : s.owner = none := hm.same hget hleave ▸ howner
      have hout : w.pc.locked = false := by
        by_contra hin
        have hmine := hs.locked i w hw (by simpa using hin)
        simp [hnone] at hmine
      rw [hm.part hout]
      exact hs.free hnone

theorem Sound.holds_step (hs : s.Sound) (hw : s.writer i = some w) (hm : s.Advanced spills i w s') :
    ∀ j v, s'.writer j = some v → v.disturbed = false → s'.Holds v := by
  intro j v hv hdisturbed
  by_cases hj : j = i
  · subst hj
    obtain ⟨pc, hnext, rfl⟩ := Option.map_eq_some_iff.mp (hm.mine.symm.trans hv)
    have hown := (hs.holds j w hw hdisturbed).own (i := j) (hs.fits j w hw)
      (fun hget => hs.free (hm.freed hget)) hnext
    rw [hm.eq]
    exact hown.congr (fun _ _ => rfl) fun _ => rfl
  · rw [hm.other j hj] at hv
    obtain ⟨v₀, hv₀, rfl⟩ := Option.map_eq_some_iff.mp hv
    obtain ⟨hsame, hreads⟩ := disturb_undisturbed hdisturbed
    rw [hsame] at hdisturbed ⊢
    apply (hs.holds j v₀ hv₀ hdisturbed).congr
    · exact fun b hb => hm.read b (hreads b hb)
    · exact fun hlocked => hm.part (hs.alone hw hm hj hv₀ hlocked).1

theorem Sound.ending_step (hs : s.Sound) (hw : s.writer i = some w)
    (hm : s.Advanced spills i w s') :
    ∀ j v, s'.writer j = some v → terminated v.pc = true → ∃ text, s'.part = text ++ [10] := by
  intro j v hv hended
  by_cases hj : j = i
  · subst hj
    obtain ⟨pc, hnext, rfl⟩ := Option.map_eq_some_iff.mp (hm.mine.symm.trans hv)
    have hfrom : w.pc = .newline ∨ ∃ op, w.pc = .newlineStored op := by
      cases hpc : w.pc <;> simp only [next, hpc, Option.some.injEq, reduceCtorEq] at hnext <;>
        subst hnext
      case headerStored =>
        dsimp only at hended
        split at hended <;> cases hended
      case newline => exact .inl rfl
      case newlineStored op => exact .inr ⟨op, rfl⟩
      all_goals cases hended
    rcases hfrom with hpc | ⟨op, hpc⟩
    · exact ⟨s.part, by simp [hm.eq, effect, hpc, move, write]⟩
    · obtain ⟨text, htext⟩ := hs.ending j w hw (by rw [hpc]; rfl)
      exact ⟨text, by simp [hm.eq, effect, hpc, move, htext]⟩
  · rw [hm.other j hj] at hv
    obtain ⟨v₀, hv₀, rfl⟩ := Option.map_eq_some_iff.mp hv
    rw [(disturb_same _ _).2] at hended
    have hlocked : v₀.pc.locked = true := by
      cases hpc : v₀.pc <;> simp [hpc, terminated] at hended <;> rfl
    rw [hm.part (hs.alone hw hm hj hv₀ hlocked).1]
    exact hs.ending j v₀ hv₀ hended

theorem Advanced.lines (hm : s.Advanced spills i w s') :
    s'.lines = s.lines ∧ w.pc ≠ .leave ∨ w.pc = .leave ∧ s'.lines =
      s.lines ++ [{ thread := i, call := w.call, bytes := s.part, disturbed := w.disturbed }] := by
  by_cases hleave : w.pc = .leave
  · refine .inr ⟨hleave, ?_⟩
    rw [hm.eq]
    exact effect_leave hleave
  · refine .inl ⟨?_, hleave⟩
    rw [hm.eq]
    exact effect_lines hleave

theorem Advanced.forall_lines {P : LogLine → Prop} (hm : s.Advanced spills i w s')
    (hold : ∀ ln ∈ s.lines, P ln)
    (hnew : w.pc = .leave →
      P { thread := i, call := w.call, bytes := s.part, disturbed := w.disturbed }) :
    ∀ ln ∈ s'.lines, P ln := by
  intro ln hln
  rcases hm.lines with ⟨hlines, -⟩ | ⟨hleave, hlines⟩
  · exact hold ln (hlines ▸ hln)
  · rw [hlines] at hln
    rcases List.mem_append.mp hln with hln | hln
    · exact hold ln hln
    · rw [List.mem_singleton.mp hln]
      exact hnew hleave

theorem Sound.counted_step (hs : s.Sound) (hw : s.writer i = some w) (hm : s.Advanced spills i w s') :
    ∀ j, s'.callsOf j = s'.writtenBy j ++ s'.unwritten j := by
  intro j
  have hcalls : s'.callsOf j = s.callsOf j := by simp only [callsOf, hm.calls]
  rw [hcalls, hs.counted j]
  by_cases hj : j = i
  · subst hj
    rcases hm.lines with ⟨hlines, hleave⟩ | ⟨hleave, hlines⟩
    · have hwritten : s'.writtenBy j = s.writtenBy j := by simp only [writtenBy, hlines]
      rw [hwritten, unwritten, unwritten, hw, hm.mine]
      cases hpc : w.pc <;> simp [next, hpc, LinePc.left] at hleave ⊢
      split <;> simp
    · have hwritten : s'.writtenBy j = s.writtenBy j ++ [w.call] := by simp [writtenBy, hlines]
      rw [hwritten, unwritten, unwritten, hw, hm.mine]
      simp [next, hleave, LinePc.left]
  · have hwritten : s'.writtenBy j = s.writtenBy j := by
      rcases hm.lines with ⟨hlines, -⟩ | ⟨-, hlines⟩
      · simp only [writtenBy, hlines]
      · simp [writtenBy, hlines, Ne.symm hj]
    rw [hwritten, unwritten, unwritten, hm.other j hj]
    rcases s.writer j with - | v
    · rfl
    · simp only [Option.map_some, disturb_same]

theorem Sound.fits_step (hs : s.Sound) (hw : s.writer i = some w)
    (hm : s.Advanced spills i w s') : ∀ j v, s'.writer j = some v → v.call.Fits := by
  intro j v hv
  by_cases hj : j = i
  · subst hj
    obtain ⟨pc, -, rfl⟩ := Option.map_eq_some_iff.mp (hm.mine.symm.trans hv)
    exact hs.fits j w hw
  · rw [hm.other j hj] at hv
    obtain ⟨v₀, hv₀, rfl⟩ := Option.map_eq_some_iff.mp hv
    rw [(disturb_same _ _).1]
    exact hs.fits j v₀ hv₀

theorem Sound.step {a : Action} (hs : s.Sound) (hok : s.CallsFit a)
    (h : step spills s a = some s') : s'.Sound := by
  cases a with
  | log i c =>
    simp only [LogState.step, Option.ite_none_right_eq_some, Option.some.injEq] at h
    obtain ⟨hidle, rfl⟩ := h
    exact hs.enter hok hidle
  | advance i =>
    obtain ⟨w, hw, h⟩ := Option.bind_eq_some_iff.mp h
    have hm := advance_advanced hw h
    constructor
    · exact hs.fits_step hw hm
    · exact hs.locked_step hw hm
    · exact hs.owner_step hw hm
    · exact hs.free_step hw hm
    · exact hs.holds_step hw hm
    · exact hs.ending_step hw hm
    · apply hm.forall_lines hs.exact
      intro hleave hdisturbed
      have hholds := hs.holds i w hw hdisturbed
      have hline : s.part = w.call.line := by simpa [Holds, hleave] using hholds
      exact ⟨hline, hline ▸ (hs.fits i w hw).line_le⟩
    · apply hm.forall_lines hs.ended
      intro hleave
      exact hs.ending i w hw (by rw [hleave]; rfl)
    · exact hs.counted_step hw hm

theorem sound_of_reaches {n : ℕ} {junk : List UInt8}
    (h : Reaches (LogState.step spills) CallsFit (start n junk) s) : s.Sound :=
  h.invariant (sound_start n junk) fun _ _ _ hs hok h => hs.step hok h

/-- **Every call writes one whole line**, in every run of any number of threads whose calls fit
`logString`: under the lock nobody else writes, each call has exactly one line, in the order
in which its thread made the calls, and the line of a call that nobody disturbed is its own. -/
theorem lines_whole {n : ℕ} {junk : List UInt8}
    (h : Reaches (LogState.step spills) CallsFit (start n junk) s) :
    (s.owner = none → s.part = []) ∧
    (∀ ln ∈ s.lines, (∃ text, ln.bytes = text ++ [10]) ∧
      (ln.disturbed = false → ln.bytes = ln.call.line ∧ ln.bytes.length ≤ MAX_LOG_SIZE)) ∧
    ∀ i, s.callsOf i = s.writtenBy i ++ s.unwritten i := by
  have hs := sound_of_reaches h
  exact ⟨hs.free, fun ln hln => ⟨hs.ended ln hln, hs.exact ln hln⟩, hs.counted⟩

end LogState
end MddProxy
