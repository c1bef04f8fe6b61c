import MddProxy.Interleaving.Runs
import MddProxy.Interleaving.Slots

/-!
# The logger and its file

Every thread formats into the buffers of the one `Logger` and only then takes the lock of
the file. Under the lock a call writes its line piece by piece; what it writes is what the
buffers hold by then, which may be the text of another call. It gives the lock back before
it flushes the stream that all of them write to.

An operation on the stream is two steps: bytes are moved, then the put pointer is set. What
`perror` prints goes elsewhere.
-/
namespace MddProxy

open Interleaving

def MAX_LOG_SIZE : ℕ := 2048

/-- What one call of `Log`, or of `LogException` with no `body`, is to write: the time, the
rest of the header, the formatted message. All three are C strings. -/
structure LogCall where
  time : List UInt8
  rest : List UInt8
  body : Option (List UInt8)
  text : 0 ∉ time ∧ 0 ∉ rest ∧ ∀ b ∈ body, 0 ∉ b
  deriving DecidableEq

/-- The time fits `tmbuf` and the header `logString`. Nothing in the source checks the latter:
`sprintf` has no bound. -/
def LogCall.Fits (c : LogCall) : Prop := c.time.length < 64 ∧ c.rest.length + 64 ≤ MAX_LOG_SIZE

instance (c : LogCall) : Decidable c.Fits := inferInstanceAs (Decidable (_ ∧ _))

/-- The members of `Logger` that the calls share. `LogException` has its own time. -/
inductive LogBuffer where
  | nowtm
  | tmbuf
  | nowtmErr
  | tmbufErr
  | logString
  deriving DecidableEq, Repr

/-- What the second half of an operation on the stream does to the put pointer. -/
inductive PutOp where
  /-- `n` bytes have been stored behind it. -/
  | bump (n : ℕ)
  /-- The put area has been written to the file. -/
  | reset
  deriving DecidableEq, Repr

def PutOp.pptr : PutOp → ℕ → ℕ
  | .bump n, pptr => pptr + n
  | .reset, _ => 0

inductive LinePc where
  | localtime
  | strftime
  | sprintf
  | getLogger
  /-- `strlen(logString)` of the header. -/
  | measureHeader
  | writeHeader (hdrsz : ℕ)
  /-- Half way through that `write`. -/
  | headerStored (hdrsz : ℕ) (op : PutOp)
  | vsnprintf (hdrsz : ℕ)
  | measureBody
  | writeBody (size : ℕ)
  | bodyStored (op : PutOp)
  | newline
  | newlineStored (op : PutOp)
  | leave
  | flush
  /-- Half way through `flush`. -/
  | flushed
  deriving DecidableEq, Repr

def LinePc.midway : LinePc → Option PutOp
  | .headerStored _ op | .bodyStored op | .newlineStored op => some op
  | .flushed => some .reset
  | .localtime | .strftime | .sprintf | .getLogger | .measureHeader | .writeHeader _ => none
  | .vsnprintf _ | .measureBody | .writeBody _ | .newline | .leave | .flush => none

def LinePc.startsPut : LinePc → Bool
  | .writeHeader _ | .writeBody _ | .newline | .flush => true
  | .localtime | .strftime | .sprintf | .getLogger | .measureHeader | .headerStored _ _ => false
  | .vsnprintf _ | .measureBody | .bodyStored _ | .newlineStored _ | .leave | .flushed => false

def LinePc.left : LinePc → Bool
  | .flush | .flushed => true
  | _ => false

namespace LogCall

variable (c : LogCall)

/-- Where the call keeps the broken-down time, and where its text. -/
def nowtm : LogBuffer := if c.body.isSome then .nowtm else .nowtmErr
def tmbuf : LogBuffer := if c.body.isSome then .tmbuf else .tmbufErr

def header : List UInt8 := c.time ++ c.rest

def message : List UInt8 :=
  match c.body with
  | some b => b.take (MAX_LOG_SIZE - c.header.length - 1)
  | none => []

def line : List UInt8 := c.header ++ c.message ++ [10]

def overwrites : LinePc → Option LogBuffer
  | .localtime => some c.nowtm
  | .strftime => some c.tmbuf
  | .sprintf | .vsnprintf _ => some .logString
  | _ => none

def reliesOn : LinePc → Option LogBuffer
  | .strftime => some c.nowtm
  | .sprintf => some c.tmbuf
  | .getLogger | .measureHeader | .writeHeader _ | .measureBody | .writeBody _ => some .logString
  | .localtime | .headerStored _ _ | .vsnprintf _ | .bodyStored _ | .newline => none
  | .newlineStored _ | .leave | .flush | .flushed => none

end LogCall

/-- A thread inside a call, and whether somebody has overwritten a buffer that the call
still relied on. -/
structure LogWriter where
  call : LogCall
  pc : LinePc
  disturbed : Bool
  deriving DecidableEq

/-- A line of the file, by the thread and the call that wrote it. -/
structure LogLine where
  thread : ℕ
  call : LogCall
  bytes : List UInt8
  disturbed : Bool
  deriving DecidableEq

/-- The logger, its file and the threads that use it, with the calls made and the lines
written so far. The put area of the stream is the front of `area`, up to `pptr`; `part` is
what the holder of the lock has given to `write` of its line. -/
structure LogState where
  nowtm : List UInt8
  tmbuf : List UInt8
  nowtmErr : List UInt8
  tmbufErr : List UInt8
  logString : List UInt8
  owner : Option ℕ
  file : List UInt8
  area : List UInt8
  pptr : ℕ
  writers : List (Option LogWriter)
  calls : List (ℕ × LogCall)
  lines : List LogLine
  part : List UInt8

def cString (buffer : List UInt8) : List UInt8 := buffer.takeWhile (· ≠ 0)

def sprintf (buffer text : List UInt8) : List UInt8 :=
  text ++ 0 :: buffer.drop (text.length + 1)

def vsnprintf (buffer : List UInt8) (size : ℕ) (text : List UInt8) : List UInt8 :=
  if size = 0 then buffer else sprintf buffer (text.take (size - 1))

namespace LogState

/-- The first half of `write`: the bytes are stored in the put area, or go to the file with it.
`spills` is the choice that the library makes from the fill of the area and the length. -/
def write (s : LogState) (spills : ℕ → ℕ → Bool) (bytes : List UInt8) : LogState :=
  { s with
    file := if spills s.pptr bytes.length then s.file ++ s.area.take s.pptr ++ bytes else s.file
    area :=
      if spills s.pptr bytes.length then s.area
      else s.area.take s.pptr ++ bytes ++ s.area.drop (s.pptr + bytes.length)
    part := s.part ++ bytes }

def putOp (s : LogState) (spills : ℕ → ℕ → Bool) (bytes : List UInt8) : PutOp :=
  if spills s.pptr bytes.length then .reset else .bump bytes.length

def setNowtm (s : LogState) (c : LogCall) : LogState :=
  if c.body.isSome then { s with nowtm := c.time } else { s with nowtmErr := c.time }

def setTmbuf (s : LogState) (c : LogCall) : LogState :=
  if c.body.isSome then { s with tmbuf := s.nowtm } else { s with tmbufErr := s.nowtmErr }

def timeText (s : LogState) (c : LogCall) : List UInt8 :=
  if c.body.isSome then s.tmbuf else s.tmbufErr

/-- Every other call that relies on a buffer sees it overwritten. -/
def disturb (buffer : Option LogBuffer) (w : LogWriter) : LogWriter :=
  if buffer ≠ none ∧ w.call.reliesOn w.pc = buffer then { w with disturbed := true } else w

/-- Thread `i` takes its step: its call moves to `next`, or returns. -/
def move (s : LogState) (i : ℕ) (w : LogWriter) (next : Option LinePc) : LogState :=
  { s with
    writers := (s.writers.map (Option.map (disturb (w.call.overwrites w.pc)))).set i
      (next.map fun pc => { w with pc }) }

variable (spills : ℕ → ℕ → Bool)

/-- What the step of thread `i` does to buffers, lock and file. -/
def effect (s : LogState) (i : ℕ) (w : LogWriter) : LogState :=
  match w.pc with
  | .localtime => s.setNowtm w.call
  | .strftime => s.setTmbuf w.call
  | .sprintf =>
    { s with logString := MddProxy.sprintf s.logString (s.timeText w.call ++ w.call.rest) }
  | .getLogger => { s with owner := some i }
  | .writeHeader hdrsz => s.write spills (s.logString.take hdrsz)
  | .vsnprintf hdrsz =>
    { s with logString :=
        MddProxy.vsnprintf s.logString (MAX_LOG_SIZE - hdrsz) (w.call.body.getD []) }
  | .writeBody size => s.write spills (s.logString.take size)
  | .newline => s.write spills [10]
  | .headerStored _ op | .bodyStored op | .newlineStored op =>
    { s with pptr := op.pptr s.pptr }
  | .leave =>
    { s with
      owner := none
      lines := s.lines ++
        [{ thread := i, call := w.call, bytes := s.part, disturbed := w.disturbed }]
      part := [] }
  | .flush => { s with file := s.file ++ s.area.take s.pptr }
  | .flushed => { s with pptr := 0 }
  | .measureHeader | .measureBody => s

/-- Where the call is after the step; `none` is its return. -/
def next (s : LogState) (w : LogWriter) : Option LinePc :=
  match w.pc with
  | .localtime => some .strftime
  | .strftime => some .sprintf
  | .sprintf => some .getLogger
  | .getLogger => some .measureHeader
  | .measureHeader => some (.writeHeader (cString s.logString).length)
  | .writeHeader hdrsz => some (.headerStored hdrsz (s.putOp spills (s.logString.take hdrsz)))
  | .headerStored hdrsz _ => some (if w.call.body.isSome then .vsnprintf hdrsz else .newline)
  | .vsnprintf _ => some .measureBody
  | .measureBody => some (.writeBody (cString s.logString).length)
  | .writeBody size => some (.bodyStored (s.putOp spills (s.logString.take size)))
  | .bodyStored _ => some .newline
  | .newline => some (.newlineStored (s.putOp spills [10]))
  | .newlineStored _ => some .leave
  | .leave => some .flush
  | .flush => some .flushed
  | .flushed => none

def advance (s : LogState) (i : ℕ) (w : LogWriter) : Option LogState :=
  if w.pc = .getLogger ∧ s.owner ≠ none then none
  else some ((s.effect spills i w).move i w (s.next spills w))

def writer (s : LogState) (i : ℕ) : Option LogWriter := s.writers[i]?.join

inductive Action where
  /-- Thread `i` makes a call. -/
  | log (i : ℕ) (c : LogCall)
  | advance (i : ℕ)
  deriving DecidableEq

def enter (s : LogState) (i : ℕ) (c : LogCall) : LogState :=
  { s with
    writers := s.writers.set i (some ⟨c, .localtime, false⟩), calls := s.calls ++ [(i, c)] }

def step (s : LogState) : Action → Option LogState
  | .log i c => if s.writers[i]? = some none then some (s.enter i c) else none
  | .advance i => (s.writer i).bind (s.advance spills i)

/-- A new logger for `n` threads; `junk` is what `new char[MAX_LOG_SIZE]` found. -/
def start (n : ℕ) (junk : List UInt8) : LogState where
  nowtm := []
  tmbuf := []
  nowtmErr := []
  tmbufErr := []
  logString := junk
  owner := none
  file := []
  area := []
  pptr := 0
  writers := List.replicate n none
  calls := []
  lines := []
  part := []

end LogState

section Strings

variable {buffer text : List UInt8} {size : ℕ}

theorem cString_sprintf (h : 0 ∉ text) : cString (sprintf buffer text) = text := by
  have hall : ∀ b ∈ text, (decide (b ≠ 0)) = true := by
    intro b hb
    simpa using fun heq : b = 0 => h (heq ▸ hb)
  rw [cString, sprintf, List.takeWhile_append_of_pos hall, List.takeWhile_cons_of_neg (by simp),
    List.append_nil]

theorem take_cString : buffer.take (cString buffer).length = cString buffer :=
  (List.prefix_iff_eq_take.mp (List.takeWhile_prefix _)).symm

theorem cString_vsnprintf (hsize : 0 < size) (h : 0 ∉ text) :
    cString (vsnprintf buffer size text) = text.take (size - 1) := by
  rw [vsnprintf, if_neg (by omega)]
  exact cString_sprintf fun hmem => h (List.mem_of_mem_take hmem)

end Strings

namespace LogCall

variable (c : LogCall)

theorem header_text : 0 ∉ c.header := by
  intro hmem
  rcases List.mem_append.mp hmem with hmem | hmem
  · exact c.text.1 hmem
  · exact c.text.2.1 hmem

variable {c} in
theorem Fits.header_lt (h : c.Fits) : c.header.length < MAX_LOG_SIZE := by
  have htime := h.1
  have hrest := h.2
  rw [header, List.length_append]
  omega

variable {c} in
theorem Fits.line_le (h : c.Fits) : c.line.length ≤ MAX_LOG_SIZE := by
  have hlt := h.header_lt
  have hmessage : c.message.length ≤ MAX_LOG_SIZE - c.header.length - 1 := by
    unfold message
    split
    · exact List.length_take_le _ _
    · exact Nat.zero_le _
  simp only [line, List.length_append, List.length_singleton]
  omega

end LogCall

/-- The points between `getLogger` and `leave`. -/
def LinePc.locked : LinePc → Bool
  | .measureHeader | .writeHeader _ | .headerStored _ _ | .vsnprintf _ | .measureBody => true
  | .writeBody _ | .bodyStored _ | .newline | .newlineStored _ | .leave => true
  | .localtime | .strftime | .sprintf | .getLogger | .flush | .flushed => false

namespace LogState

variable {spills : ℕ → ℕ → Bool} {s s' : LogState} {i j : ℕ} {w v : LogWriter} {b : LogBuffer}

def read (s : LogState) : LogBuffer → List UInt8
  | .nowtm => s.nowtm
  | .tmbuf => s.tmbuf
  | .nowtmErr => s.nowtmErr
  | .tmbufErr => s.tmbufErr
  | .logString => s.logString

/-- What a call that nobody has disturbed finds, and what it has written. -/
def Holds (s : LogState) (w : LogWriter) : Prop :=
  match w.pc with
  | .localtime | .flush | .flushed => True
  | .strftime => s.read w.call.nowtm = w.call.time
  | .sprintf => s.read w.call.tmbuf = w.call.time
  | .getLogger => cString s.logString = w.call.header
  | .measureHeader => cString s.logString = w.call.header ∧ s.part = []
  | .writeHeader hdrsz =>
    cString s.logString = w.call.header ∧ hdrsz = w.call.header.length ∧ s.part = []
  | .headerStored hdrsz _ | .vsnprintf hdrsz =>
    hdrsz = w.call.header.length ∧ s.part = w.call.header
  | .measureBody => cString s.logString = w.call.message ∧ s.part = w.call.header
  | .writeBody size => cString s.logString = w.call.message ∧ size = w.call.message.length ∧
      s.part = w.call.header
  | .bodyStored _ | .newline => s.part = w.call.header ++ w.call.message
  | .newlineStored _ | .leave => s.part = w.call.line

theorem effect_read (h : w.call.overwrites w.pc ≠ some b) : (s.effect spills i w).read b = s.read b := by
  cases hpc : w.pc <;> simp only [hpc, LogCall.overwrites, ne_eq, Option.some.injEq] at h <;>
    simp only [effect, hpc]
  case localtime =>
    unfold setNowtm
    split <;> cases b <;> simp_all [read, LogCall.nowtm]
  case strftime =>
    unfold setTmbuf
    split <;> cases b <;> simp_all [read, LogCall.tmbuf]
  case sprintf | vsnprintf => cases b <;> simp_all [read]
  all_goals cases b <;> rfl

theorem effect_part (h : w.pc.locked = false) : (s.effect spills i w).part = s.part := by
  cases hpc : w.pc <;> simp only [hpc, LinePc.locked, reduceCtorEq] at h <;>
    simp only [effect, hpc]
  case localtime =>
    unfold setNowtm
    split <;> rfl
  case strftime =>
    unfold setTmbuf
    split <;> rfl

theorem effect_same : (s.effect spills i w).writers = s.writers ∧ (s.effect spills i w).calls = s.calls := by
  cases hpc : w.pc <;> simp only [effect, hpc, write, and_self]
  case localtime =>
    unfold setNowtm
    split <;> exact ⟨rfl, rfl⟩
  case strftime =>
    unfold setTmbuf
    split <;> exact ⟨rfl, rfl⟩

theorem disturb_same (buffer : Option LogBuffer) (v : LogWriter) :
    (disturb buffer v).call = v.call ∧ (disturb buffer v).pc = v.pc := by
  unfold disturb
  split <;> exact ⟨rfl, rfl⟩

/-- A call found undisturbed was so, and relies on nothing that was overwritten. -/
theorem disturb_undisturbed {buffer : Option LogBuffer}
    (h : (disturb buffer v).disturbed = false) :
    disturb buffer v = v ∧ ∀ b, v.call.reliesOn v.pc = some b → buffer ≠ some b := by
  unfold disturb at h ⊢
  split at h
  · cases h
  next hno =>
    refine ⟨if_neg hno, fun b hb heq => hno ⟨by simp [heq], hb.trans heq.symm⟩⟩

theorem Holds.congr (h : s.Holds w) (hread : ∀ b, w.call.reliesOn w.pc = some b →
    s'.read b = s.read b) (hpart : w.pc.locked = true → s'.part = s.part) : s'.Holds w := by
  unfold Holds at h ⊢
  cases hpc : w.pc <;> simp only [hpc, LogCall.reliesOn, LinePc.locked, Option.some.injEq,
    forall_eq', read, forall_const] at h hread hpart ⊢ <;> simp_all

theorem setNowtm_read (c : LogCall) : (s.setNowtm c).read c.nowtm = c.time := by
  unfold setNowtm LogCall.nowtm
  split <;> rfl

theorem setTmbuf_read (c : LogCall) : (s.setTmbuf c).read c.tmbuf = s.read c.nowtm := by
  unfold setTmbuf LogCall.nowtm LogCall.tmbuf
  split <;> rfl

theorem timeText_read (c : LogCall) : s.timeText c = s.read c.tmbuf := by
  unfold timeText LogCall.tmbuf
  split <;> rfl

theorem take_message (c : LogCall) :
    (c.body.getD []).take (MAX_LOG_SIZE - c.header.length - 1) = c.message := by
  unfold LogCall.message
  cases c.body <;> simp

/-- A step of its own keeps what an undisturbed call relies on. -/
theorem Holds.own {pc : LinePc} (h : s.Holds w) (hfits : w.call.Fits)
    (hfree : w.pc = .getLogger → s.part = []) (hnext : s.next spills w = some pc) :
    (s.effect spills i w).Holds { w with pc } := by
  have hlt := hfits.header_lt
  unfold Holds at h
  cases hpc : w.pc <;> simp only [hpc, next, Option.some.injEq, reduceCtorEq] at h hnext hfree <;>
    subst hnext <;> simp only [effect, hpc]
  case localtime => exact setNowtm_read w.call
  case strftime => exact (setTmbuf_read w.call).trans h
  case sprintf =>
    have hheader : s.timeText w.call ++ w.call.rest = w.call.header := by
      rw [timeText_read, h]
      rfl
    simp only [Holds, hheader]
    exact cString_sprintf w.call.header_text
  case getLogger => exact ⟨h, hfree trivial⟩
  case measureHeader => exact ⟨h.1, by rw [h.1], h.2⟩
  case writeHeader =>
    obtain ⟨hstring, rfl, hpart⟩ := h
    refine ⟨rfl, ?_⟩
    simp only [write]
    rw [hpart, List.nil_append, ← hstring]
    exact take_cString
  case headerStored =>
    cases hbody : w.call.body with
    | none =>
      have hmessage : w.call.message = [] := by simp [LogCall.message, hbody]
      simpa [Holds, hmessage] using h.2
    | some b => exact h
  case vsnprintf =>
    obtain ⟨rfl, hpart⟩ := h
    have htext : 0 ∉ w.call.body.getD [] := by
      cases hbody : w.call.body with
      | none => simp
      | some b => exact w.call.text.2.2 b hbody
    refine ⟨?_, hpart⟩
    rw [cString_vsnprintf (by omega) htext]
    exact take_message w.call
  case measureBody => exact ⟨h.1, by rw [h.1], h.2⟩
  case writeBody =>
    obtain ⟨hstring, rfl, hpart⟩ := h
    simp only [Holds, write]
    rw [hpart, ← hstring, take_cString]
  case bodyStored => exact h
  case newline =>
    simp only [Holds, write, LogCall.line]
    rw [h]
  case newlineStored => exact h
  case leave => trivial
  case flush => trivial

end LogState
end MddProxy
