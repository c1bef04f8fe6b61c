import MddProxy.Boost.Collections
import Mathlib.Data.List.Basic
import Mathlib.Data.List.TakeWhile
import Mathlib.Tactic.MkIffOfInductiveProp

/-!
# From the command line to the configuration file

`main` up to the construction of the proxy: `getopt_long` with `"dc:l"` and the table
`longOptions`, the `switch` on its results, the log level and the format of the
configuration file. The table has no closing entry: a long option that matches none of its
names makes `getopt_long` read past its end.

Arguments are without the program name.
-/
namespace MddProxy

open Collections

/-- An element of `argv`, with one `Char` for each byte. -/
abbrev Arg := List Char

inductive Exit where
  /-- The usage text. -/
  | usage
  | logLevel
  | configFormat
  /-- An exception leaves `main`. -/
  | uncaught
  /-- A null `optarg` is used, the table is read past its end, or `atoi` overflows. -/
  | undefined
  deriving DecidableEq, Repr

inductive OptEvent where
  | option (c : Char) (optarg : Option Arg)
  /-- `'?'`. -/
  | unknown
  /-- The search for a long option leaves the table. -/
  | outOfTable
  deriving DecidableEq, Repr

inductive LongOption where
  | config
  | logdir
  | loglevel
  | mgmtport
  deriving DecidableEq, Repr

namespace LongOption

def name : LongOption → Arg
  | .config => ['c', 'o', 'n', 'f', 'i', 'g']
  | .logdir => ['l', 'o', 'g', 'd', 'i', 'r']
  | .loglevel => ['l', 'o', 'g', 'l', 'e', 'v', 'e', 'l']
  | .mgmtport => ['m', 'g', 'm', 't', 'p', 'o', 'r', 't']

def val : LongOption → Char
  | .config => 'c'
  | .logdir => 'd'
  | .loglevel => 'l'
  | .mgmtport => 'm'

/-- `required_argument`, or else `optional_argument`. -/
def required : LongOption → Bool
  | .config | .logdir | .loglevel => true
  | .mgmtport => false

end LongOption

def longOptions : List LongOption := [.config, .logdir, .loglevel, .mgmtport]

namespace Startup

/-- The characters after the dash of a short option argument, with the option that still
waits for its argument. In `"dc:l"` only `c` takes one. -/
def cluster : List Char → List OptEvent × Option Char
  | [] => ([], none)
  | c :: cs =>
    if c = 'c' then
      if cs = [] then ([], some 'c') else ([.option 'c' (some cs)], none)
    else
      let (events, waiting) := cluster cs
      if c = 'd' ∨ c = 'l' then (.option c none :: events, waiting)
      else (.unknown :: events, waiting)

def long (body : List Char) : List OptEvent × Option Char :=
  match longOptions.find? fun o => o.name = body.takeWhile (· ≠ '=') with
  | none => ([.outOfTable], none)
  | some o =>
    match body.dropWhile (· ≠ '=') with
    | _ :: value => ([.option o.val (some value)], none)
    | [] => if o.required then ([], some o.val) else ([.option o.val none], none)

/-- All that `getopt_long` gives until it returns -1, with operands skipped (`POSIXLY_CORRECT`
is not set); the first argument is an option whose argument is the next element of `argv`. -/
def events : Option Char → List Arg → List OptEvent
  | some _, [] => [.unknown]
  | some c, arg :: args => .option c (some arg) :: events none args
  | none, [] => []
  | none, ['-', '-'] :: _ => []
  | none, ('-' :: '-' :: body) :: args => (long body).1 ++ events (long body).2 args
  | none, ('-' :: c :: cs) :: args =>
    (cluster (c :: cs)).1 ++ events (cluster (c :: cs)).2 args
  | none, _ :: args => events none args

/-- `isspace`: the blank, and the tabulator to the carriage return. -/
def isspace (c : Char) : Bool := c = ' ' ∨ 9 ≤ c.toNat ∧ c.toNat ≤ 13

/-- `atoi`: blanks, a sign, digits; `none` outside the range of `int`. -/
def atoi (arg : Arg) : Option ℤ :=
  let rest := arg.dropWhile isspace
  let digits := match rest with
    | '-' :: cs | '+' :: cs => cs
    | cs => cs
  let magnitude : ℤ := ((digits.takeWhile Char.isDigit).foldl
    (fun n c => 10 * n + (c.toNat - '0'.toNat)) 0 : ℕ)
  let value := if rest.head? = some '-' then -magnitude else magnitude
  if -2147483648 ≤ value ∧ value ≤ 2147483647 then some value else none

structure Settings where
  configFileName : Arg
  logFileDir : Arg
  logLevel : Arg
  mgmtport : ℤ
  deriving DecidableEq, Repr

def defaults : Settings := ⟨[], ['/', 't', 'm', 'p', '/'], ['i', 'n', 'f', 'o'], 6800⟩

def handle (s : Settings) : OptEvent → Except Exit Settings
  | .option 'c' (some arg) => .ok { s with configFileName := arg }
  | .option 'd' (some arg) => .ok { s with logFileDir := arg }
  | .option 'l' (some arg) => .ok { s with logLevel := arg }
  | .option 'm' (some arg) =>
    match atoi arg with
    | some port => .ok { s with mgmtport := port }
    | none => .error .undefined
  | .option 'c' none | .option 'd' none | .option 'l' none | .option 'm' none => .error .undefined
  | .option _ _ | .unknown => .error .usage
  | .outOfTable => .error .undefined

def parse (args : List Arg) : Except Exit Settings := (events none args).foldlM handle defaults

inductive ConfigFileFormatT where
  | xml
  | ini
  | json
  | info
  deriving DecidableEq, Repr

def rfind (name : Arg) : Option ℕ :=
  (name.reverse.findIdx? (· = '.')).map fun i => name.length - 1 - i

/-- `substr(found, size() - 1)` of the file name, compared with the extensions. `substr`
throws when nothing was found. -/
def configFormat (name : Arg) : Except Exit ConfigFileFormatT :=
  match rfind name with
  | none => .error .uncaught
  | some found =>
    let extension := (name.drop found).take (name.length - 1)
    if extension = ['.', 'x', 'm', 'l'] then .ok .xml
    else if extension = ['.', 'i', 'n', 'i'] then .ok .ini
    else if extension = ['.', 'j', 's', 'o', 'n'] then .ok .json
    else if extension = ['.', 'i', 'n', 'f', 'o'] then .ok .info
    else .error .configFormat

/-- `main` up to the call of `read_xml` in `Load`. -/
def startup (args : List Arg) : Except Exit Settings := do
  let s ← parse args
  if s.logLevel ≠ ['d', 'e', 'b', 'u', 'g'] ∧ s.logLevel ≠ ['i', 'n', 'f', 'o'] then throw .logLevel
  let format ← configFormat s.configFileName
  match format with
  | .xml => pure s
  -- the `default` of the `switch` in `Load`
  | .ini | .json | .info => throw .uncaught

theorem rfind_append {before after : Arg} (h : '.' ∉ after) :
    rfind (before ++ '.' :: after) = some before.length := by
  have hfind : (before ++ '.' :: after).reverse.findIdx? (· = '.') = some after.length := by
    have hall : ∀ c ∈ after.reverse, decide (c = '.') = false := by
      intro c hc
      simpa using fun heq : c = '.' => h (heq ▸ List.mem_reverse.mp hc)
    simp only [List.reverse_append, List.reverse_cons, List.append_assoc, List.cons_append,
      List.nil_append]
    rw [List.findIdx?_append, List.findIdx?_eq_none_iff.mpr hall]
    simp [List.findIdx?_cons]
  simp only [rfind, hfind, Option.map_some, List.length_append, List.length_cons]
  congr 1
  omega

theorem rfind_none {name : Arg} (h : '.' ∉ name) : rfind name = none := by
  have hnone : name.reverse.findIdx? (· = '.') = none := by
    rw [List.findIdx?_eq_none_iff]
    intro c hc
    simpa using fun heq : c = '.' => h (heq ▸ List.mem_reverse.mp hc)
  rw [rfind, hnone, Option.map_none]

theorem exists_last_dot {name : Arg} (h : '.' ∈ name) :
    ∃ before after, name = before ++ '.' :: after ∧ '.' ∉ after := by
  obtain ⟨as, bs, heq, hnot⟩ := List.eq_append_cons_of_mem (List.mem_reverse.mpr h)
  refine ⟨bs.reverse, as.reverse, ?_, by simpa using hnot⟩
  rw [← List.reverse_reverse name, heq]
  simp

/-- The names taken for XML: `.xml` after something, or before one character. -/
def XmlName (name : Arg) : Prop :=
  (∃ base, base ≠ [] ∧ name = base ++ ['.', 'x', 'm', 'l']) ∨
    ∃ c, c ≠ '.' ∧ name = ['.', 'x', 'm', 'l', c]

theorem configFormat_append {before after : Arg} (h : '.' ∉ after) :
    configFormat (before ++ '.' :: after) = .ok .xml ↔
      ('.' :: after).take (before.length + after.length) = ['.', 'x', 'm', 'l'] := by
  have hext : ((before ++ '.' :: after).drop before.length).take
      ((before ++ '.' :: after).length - 1) =
      ('.' :: after).take (before.length + after.length) := by
    rw [List.drop_left, List.length_append, List.length_cons]
    rfl
  simp only [configFormat, rfind_append h, hext]
  split_ifs with h₁ h₂ h₃ h₄ <;> simp_all

theorem configFormat_xml_iff {name : Arg} : configFormat name = .ok .xml ↔ XmlName name := by
  constructor
  · intro hxml
    by_cases hdot : '.' ∈ name
    · obtain ⟨before, after, rfl, hafter⟩ := exists_last_dot hdot
      rw [configFormat_append hafter] at hxml
      cases before with
      | cons c before =>
        have hall : ('.' :: after).take ((c :: before).length + after.length) = '.' :: after := by
          apply List.take_of_length_le
          simp only [List.length_cons]
          omega
        exact .inl ⟨c :: before, by simp, by rw [← hxml, hall]⟩
      | nil =>
        -- the count of `substr` is one short
        have hlen : after.length = 4 := by
          have hlength := congrArg List.length hxml
          simpa using hlength
        obtain ⟨a, b, d, e, rfl⟩ : ∃ a b d e, after = [a, b, d, e] := by
          match after, hlen with
          | [a, b, d, e], _ => exact ⟨a, b, d, e, rfl⟩
        have hchars : a = 'x' ∧ b = 'm' ∧ d = 'l' := by simpa using hxml
        obtain ⟨rfl, rfl, rfl⟩ := hchars
        refine .inr ⟨e, ?_, rfl⟩
        rintro rfl
        simp at hafter
    · rw [configFormat, rfind_none hdot] at hxml
      cases hxml
  · rintro (⟨base, hbase, rfl⟩ | ⟨c, hc, rfl⟩)
    · rw [configFormat_append (by decide)]
      apply List.take_of_length_le
      have hpos := List.length_pos_iff.mpr hbase
      simp only [List.length_cons, List.length_nil]
      omega
    · have hdot : '.' ∉ ['x', 'm', 'l', c] := by simpa using Ne.symm hc
      have hiff : configFormat ([] ++ '.' :: ['x', 'm', 'l', c]) = .ok .xml ↔ _ :=
        configFormat_append hdot
      exact hiff.mpr rfl

/-- A piece of a command line that gives an option with its argument, or none. -/
inductive Word where
  /-- `-cFILE`. -/
  | attached (file : Arg) (nonempty : file ≠ [])
  /-- `-c FILE`. -/
  | separate (file : Arg)
  /-- `--name=value`. -/
  | assigned (o : LongOption) (value : Arg)
  /-- `--name value`. -/
  | spaced (o : LongOption) (required : o.required = true) (value : Arg)
  | operand (arg : Arg) (plain : arg = ['-'] ∨ arg.head? ≠ some '-')

namespace Word

def spell : Word → List Arg
  | attached file _ => ['-' :: 'c' :: file]
  | separate file => [['-', 'c'], file]
  | assigned o value => ['-' :: '-' :: (o.name ++ '=' :: value)]
  | spaced o _ value => ['-' :: '-' :: o.name, value]
  | operand arg _ => [arg]

def setting : Word → Option (LongOption × Arg)
  | attached file _ => some (.config, file)
  | separate file => some (.config, file)
  | assigned o value => some (o, value)
  | spaced o _ value => some (o, value)
  | operand _ _ => none

def events (w : Word) : List OptEvent :=
  w.setting.toList.map fun (o, value) => .option o.val (some value)

def value (o : LongOption) (w : Word) : Option Arg :=
  w.setting.bind fun (o', value) => if o' = o then some value else none

end Word

def values (o : LongOption) (ws : List Word) : List Arg := ws.filterMap (Word.value o)

theorem name_ne_equals (o : LongOption) : ∀ c ∈ o.name, decide (c ≠ '=') = true := by
  cases o <;> simp [LongOption.name]

theorem find_name (o : LongOption) : longOptions.find? (fun o' => o'.name = o.name) = some o := by
  cases o <;> rfl

theorem takeWhile_name (o : LongOption) (value : Arg) :
    (o.name ++ '=' :: value).takeWhile (· ≠ '=') = o.name := by
  rw [List.takeWhile_append_of_pos (name_ne_equals o)]
  simp

theorem dropWhile_name (o : LongOption) (value : Arg) :
    (o.name ++ '=' :: value).dropWhile (· ≠ '=') = '=' :: value := by
  rw [List.dropWhile_append_of_pos (name_ne_equals o)]
  simp

theorem long_assigned (o : LongOption) (value : Arg) :
    long (o.name ++ '=' :: value) = ([.option o.val (some value)], none) := by
  simp only [long, takeWhile_name, dropWhile_name, find_name]

theorem long_spaced {o : LongOption} (h : o.required = true) :
    long o.name = ([], some o.val) := by
  have htake : o.name.takeWhile (· ≠ '=') = o.name :=
    List.takeWhile_eq_self_iff.mpr (name_ne_equals o)
  have hdrop : o.name.dropWhile (· ≠ '=') = [] :=
    List.dropWhile_eq_nil_iff.mpr (name_ne_equals o)
  simp only [long, htake, hdrop, find_name, h, if_true]

theorem name_ne_nil (o : LongOption) : o.name ≠ [] := by
  cases o <;> exact List.cons_ne_nil _ _

theorem events_long {body : List Char} (h : body ≠ []) (args : List Arg) :
    events none (('-' :: '-' :: body) :: args) = (long body).1 ++ events (long body).2 args := by
  cases body with
  | nil => exact absurd rfl h
  | cons c cs => rw [events]; simp

theorem events_spell (w : Word) (args : List Arg) :
    events none (w.spell ++ args) = w.events ++ events none args := by
  cases w with
  | attached file nonempty =>
    simp [Word.spell, Word.events, Word.setting, events, cluster, nonempty, LongOption.val]
  | separate file =>
    simp [Word.spell, Word.events, Word.setting, events, cluster, LongOption.val]
  | assigned o value =>
    have hbody : o.name ++ '=' :: value ≠ [] := by simp
    rw [Word.spell, List.singleton_append, events_long hbody, long_assigned]
    rfl
  | spaced o required value =>
    rw [Word.spell, List.cons_append, events_long (name_ne_nil o), long_spaced required]
    rfl
  | operand arg plain =>
    rcases plain with rfl | hhead
    · rfl
    · cases arg with
      | nil => rfl
      | cons c cs =>
        have hc : c ≠ '-' := by simpa using hhead
        simp [Word.spell, Word.events, Word.setting, events, hc]

theorem events_spell_all (ws : List Word) (args : List Arg) :
    events none (ws.flatMap Word.spell ++ args) = ws.flatMap Word.events ++ events none args := by
  induction ws with
  | nil => rfl
  | cons w ws ih =>
    rw [List.flatMap_cons, List.flatMap_cons, List.append_assoc, events_spell, ih,
      List.append_assoc]

/-- An event that the `switch` can take. -/
def Taken (e : OptEvent) : Prop := ∃ o value, e = .option (LongOption.val o) (some value)

theorem handle_option (s : Settings) (o : LongOption) (value : Arg) :
    handle s (.option o.val (some value)) =
      match o with
      | .config => .ok { s with configFileName := value }
      | .logdir => .ok { s with logFileDir := value }
      | .loglevel => .ok { s with logLevel := value }
      | .mgmtport =>
        match atoi value with
        | some port => .ok { s with mgmtport := port }
        | none => .error .undefined := by
  cases o <;> rfl

theorem handle_taken {s s' : Settings} {e : OptEvent} (h : handle s e = .ok s') : Taken e := by
  unfold handle at h
  split at h
  case h_1 arg => exact ⟨.config, arg, rfl⟩
  case h_2 arg => exact ⟨.logdir, arg, rfl⟩
  case h_3 arg => exact ⟨.loglevel, arg, rfl⟩
  case h_4 arg => exact ⟨.mgmtport, arg, rfl⟩
  all_goals cases h

theorem foldlM_handle_taken {es : List OptEvent} {s s' : Settings}
    (h : es.foldlM handle s = .ok s') : ∀ e ∈ es, Taken e := by
  induction es generalizing s with
  | nil => simp
  | cons e es ih =>
    rw [List.foldlM_cons, bind_eq_ok] at h
    obtain ⟨s₁, hhead, htail⟩ := h
    intro e' he'
    rcases List.mem_cons.mp he' with heq | hmem
    · rw [heq]
      exact handle_taken hhead
    · exact ih htail e' hmem

theorem not_taken_unknown : ¬Taken .unknown := by
  rintro ⟨o, value, h⟩
  cases h

theorem not_taken_outOfTable : ¬Taken .outOfTable := by
  rintro ⟨o, value, h⟩
  cases h

theorem not_taken_none (c : Char) : ¬Taken (.option c none) := by
  rintro ⟨o, value, h⟩
  cases h

theorem cluster_taken {c : Char} {cs : List Char} (h : ∀ e ∈ (cluster (c :: cs)).1, Taken e) :
    c = 'c' ∧ (cs = [] ∧ cluster (c :: cs) = ([], some 'c') ∨
      cs ≠ [] ∧ cluster (c :: cs) = ([.option 'c' (some cs)], none)) := by
  by_cases hc : c = 'c'
  · by_cases hcs : cs = []
    · exact ⟨hc, .inl ⟨hcs, by simp [cluster, hc, hcs]⟩⟩
    · exact ⟨hc, .inr ⟨hcs, by simp [cluster, hc, hcs]⟩⟩
  · exfalso
    by_cases hdl : c = 'd' ∨ c = 'l'
    · apply not_taken_none c
      apply h
      simp [cluster, hc, hdl]
    · apply not_taken_unknown
      apply h
      simp [cluster, hc, hdl]

theorem long_taken {body : List Char} (h : ∀ e ∈ (long body).1, Taken e) :
    (∃ o value, body = LongOption.name o ++ '=' :: value ∧ (long body).2 = none) ∨
      ∃ o, LongOption.required o = true ∧ body = o.name ∧ (long body).2 = some o.val := by
  have hbody : body.takeWhile (· ≠ '=') ++ body.dropWhile (· ≠ '=') = body :=
    List.takeWhile_append_dropWhile
  unfold long at h ⊢
  cases hfind : longOptions.find? fun o => o.name = body.takeWhile (· ≠ '=') with
  | none =>
    rw [hfind] at h
    exact absurd (h .outOfTable (by simp)) not_taken_outOfTable
  | some o =>
    have hname : o.name = body.takeWhile (· ≠ '=') := by simpa using List.find?_some hfind
    rw [hfind] at h
    cases hdrop : body.dropWhile (· ≠ '=') with
    | cons c value =>
      have hc : c = '=' := by
        have hhead := List.head?_dropWhile_not (· ≠ '=') body
        rw [hdrop] at hhead
        simpa using hhead
      refine .inl ⟨o, value, ?_, rfl⟩
      rw [← hbody, hdrop, hname, hc]
    | nil =>
      simp only [hdrop] at h ⊢
      cases hreq : o.required with
      | true =>
        refine .inr ⟨o, hreq, ?_, rfl⟩
        rw [← hbody, hdrop, hname, List.append_nil]
      | false =>
        rw [hreq] at h
        exact absurd (h (.option o.val none) (by simp)) (not_taken_none o.val)

/-- The arguments are pieces, then nothing or `--`. -/
def Spelled (args : List Arg) : Prop :=
  ∃ (ws : List Word) (tail : List Arg), args = ws.flatMap Word.spell ++ tail ∧
    (tail = [] ∨ tail.head? = some ['-', '-'])

theorem Spelled.cons {args : List Arg} (w : Word) (h : Spelled args) :
    Spelled (w.spell ++ args) := by
  obtain ⟨ws, tail, rfl, htail⟩ := h
  exact ⟨w :: ws, tail, by rw [List.flatMap_cons, List.append_assoc], htail⟩

def SpelledAfter : Option Char → List Arg → Prop
  | none, args => Spelled args
  | some _, args => ∃ arg rest, args = arg :: rest ∧ Spelled rest

theorem spelled_of_taken (waiting : Option Char) (args : List Arg) :
    (∀ e ∈ events waiting args, Taken e) → SpelledAfter waiting args := by
  fun_induction events waiting args with
  | case1 c =>
    intro h
    exact absurd (h .unknown (List.mem_singleton_self _)) not_taken_unknown
  | case2 c arg args ih =>
    intro h
    exact ⟨arg, args, rfl, ih fun e he => h e (List.mem_cons_of_mem _ he)⟩
  | case3 =>
    intro _
    exact ⟨[], [], rfl, .inl rfl⟩
  | case4 args =>
    intro _
    exact ⟨[], ['-', '-'] :: args, rfl, .inr rfl⟩
  | case5 body args hbody ih =>
    intro h
    have hrest := ih fun e he => h e (List.mem_append_right _ he)
    rcases long_taken fun e he => h e (List.mem_append_left _ he) with
      ⟨o, value, rfl, hwait⟩ | ⟨o, hreq, rfl, hwait⟩
    · rw [hwait] at hrest
      exact Spelled.cons (.assigned o value) hrest
    · rw [hwait] at hrest
      obtain ⟨value, rest, rfl, hrest⟩ := hrest
      exact Spelled.cons (.spaced o hreq value) hrest
  | case6 c cs args hdashes hdash ih =>
    intro h
    have hrest := ih fun e he => h e (List.mem_append_right _ he)
    obtain ⟨rfl, ⟨rfl, hcluster⟩ | ⟨hne, hcluster⟩⟩ :=
      cluster_taken fun e he => h e (List.mem_append_left _ he)
    · rw [hcluster] at hrest
      obtain ⟨file, rest, rfl, hrest⟩ := hrest
      exact Spelled.cons (.separate file) hrest
    · rw [hcluster] at hrest
      exact Spelled.cons (.attached cs hne) hrest
  | case7 arg args hend hlong hshort ih =>
    intro h
    have hplain : arg = ['-'] ∨ arg.head? ≠ some '-' := by
      match arg, hshort with
      | [], _ => exact .inr nofun
      | ['-'], _ => exact .inl rfl
      | [c], _ => by_cases hc : c = '-' <;> simp [hc]
      | c :: c' :: cs, hshort =>
        apply Or.inr
        intro hhead
        have hc : c = '-' := by simpa using hhead
        exact hshort c' cs (by rw [hc])
    exact Spelled.cons (.operand arg hplain) (ih h)

/-- The settings after the words, the last argument of each option counting. -/
@[mk_iff]
structure Reads (s : Settings) (ws : List Word) (s' : Settings) : Prop where
  configFileName : s'.configFileName = (values .config ws).getLastD s.configFileName
  logFileDir : s'.logFileDir = (values .logdir ws).getLastD s.logFileDir
  logLevel : s'.logLevel = (values .loglevel ws).getLastD s.logLevel
  mgmtport : ∃ ports, (values .mgmtport ws).mapM atoi = some ports ∧
    s'.mgmtport = ports.getLastD s.mgmtport

theorem events_of_setting {w : Word} {o : LongOption} {value : Arg}
    (h : w.setting = some (o, value)) : w.events = [.option o.val (some value)] := by
  rw [Word.events, h]
  rfl

theorem values_of_setting {w : Word} {o : LongOption} {value : Arg}
    (h : w.setting = some (o, value)) (o' : LongOption) (ws : List Word) :
    values o' (w :: ws) = if o = o' then value :: values o' ws else values o' ws := by
  simp only [values, List.filterMap_cons, Word.value, h, Option.bind_some]
  split_ifs <;> simp

theorem reads_nil_iff {s s' : Settings} : Reads s [] s' ↔ s' = s := by
  constructor
  · rintro ⟨hconfig, hdir, hlevel, ports, hports, hport⟩
    cases hports
    cases s
    cases s'
    simp_all [values]
  · rintro rfl
    exact ⟨rfl, rfl, rfl, [], rfl, rfl⟩

theorem reads_operand_iff {w : Word} (h : w.setting = none) {ws : List Word} {s s' : Settings} :
    Reads s (w :: ws) s' ↔ Reads s ws s' := by
  have hvalues : ∀ o, values o (w :: ws) = values o ws := by
    intro o
    simp [values, Word.value, h]
  simp only [reads_iff, hvalues]

theorem reads_setting_iff {w : Word} {o : LongOption} {value : Arg}
    (h : w.setting = some (o, value)) {ws : List Word} {s s' : Settings} :
    Reads s (w :: ws) s' ↔
      ∃ s₁, handle s (.option o.val (some value)) = .ok s₁ ∧ Reads s₁ ws s' := by
  simp only [reads_iff, values_of_setting h, handle_option]
  cases o with
  | mgmtport =>
    cases hport : atoi value with
    | none => simp [hport]
    | some port =>
      cases hports : (values .mgmtport ws).mapM atoi with
      | none => simp [hport, hports]
      | some ports => simp [hport, hports, List.getLast?_cons]
  | config | logdir | loglevel => simp [List.getLast?_cons]

theorem foldlM_handle_iff {ws : List Word} {s s' : Settings} :
    (ws.flatMap Word.events).foldlM handle s = .ok s' ↔ Reads s ws s' := by
  induction ws generalizing s with
  | nil =>
    rw [reads_nil_iff]
    exact pure_eq_ok
  | cons w ws ih =>
    rw [List.flatMap_cons, List.foldlM_append]
    cases hset : w.setting with
    | none =>
      rw [reads_operand_iff hset, ← ih, Word.events, hset]
      rfl
    | some setting =>
      obtain ⟨o, value⟩ := setting
      rw [reads_setting_iff hset, events_of_setting hset, bind_eq_ok]
      simp only [ih, List.foldlM_cons, List.foldlM_nil, bind_pure]

theorem events_end {tail : List Arg} (h : tail = [] ∨ tail.head? = some ['-', '-']) :
    events none tail = [] := by
  rcases h with rfl | hhead
  · rfl
  · obtain ⟨rest, rfl⟩ := List.head?_eq_some_iff.mp hhead
    rfl

/-- `main` reads the configuration exactly when the arguments before `--` are options with
their arguments, and operands; every port fits `int`, the last log level is known and the
last file name passes for XML. A file name or a log level counts only when it comes last. -/
theorem startup_ok_iff (args : List Arg) (s : Settings) :
    startup args = .ok s ↔
      (∃ (ws : List Word) (tail : List Arg), args = ws.flatMap Word.spell ++ tail ∧
        (tail = [] ∨ tail.head? = some ['-', '-']) ∧ Reads defaults ws s) ∧
      (s.logLevel = ['d', 'e', 'b', 'u', 'g'] ∨ s.logLevel = ['i', 'n', 'f', 'o']) ∧
      XmlName s.configFileName := by
  have hparse : parse args = .ok s ↔ ∃ (ws : List Word) (tail : List Arg),
      args = ws.flatMap Word.spell ++ tail ∧ (tail = [] ∨ tail.head? = some ['-', '-']) ∧
        Reads defaults ws s := by
    constructor
    · intro h
      obtain ⟨ws, tail, rfl, htail⟩ := spelled_of_taken none args (foldlM_handle_taken h)
      refine ⟨ws, tail, rfl, htail, foldlM_handle_iff.mp ?_⟩
      rwa [parse, events_spell_all, events_end htail, List.append_nil] at h
    · rintro ⟨ws, tail, rfl, htail, hreads⟩
      rw [parse, events_spell_all, events_end htail, List.append_nil]
      exact foldlM_handle_iff.mpr hreads
  have hformat : configFormat s.configFileName = .ok .xml ↔ XmlName s.configFileName :=
    configFormat_xml_iff
  rw [← hparse, ← hformat, startup, bind_eq_ok]
  constructor
  · rintro ⟨s₁, hs₁, hrest⟩
    split_ifs at hrest with hlevel
    · cases hrest
    · obtain ⟨format, hok, hfinal⟩ := bind_eq_ok.mp hrest
      cases format with
      | xml =>
        cases hfinal
        refine ⟨hs₁, ?_, hok⟩
        tauto
      | ini | json | info => cases hfinal
  · rintro ⟨hs, hlevel, hok⟩
    refine ⟨s, hs, ?_⟩
    rw [if_neg (by tauto), hok]
    rfl

/-- `-d` as the usage text has it leaves `optarg` null. -/
example : startup [['-', 'd'], ['/', 'l'], ['-', 'c'], ['a', '.', 'x', 'm', 'l']] =
    .error .undefined := rfl

end Startup
end MddProxy
