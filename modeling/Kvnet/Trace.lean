import Mathlib.Data.List.Basic
import Mathlib.Order.Basic

/-!
# Tracing

trace cuts the text of a line to one buffer on its stack and copies it, with the
name of the module in front and a newline behind, to a second buffer of the same
size without looking at its length again. A text is what the format and its
arguments expand to; a C string ends at its first zero byte.
-/

namespace Kvnet

def LOG_DBG : UInt32 := 0x00000002

def LOG_INFO : UInt32 := 0x00000004

def LOG_WARN : UInt32 := 0x00000008

def LOG_RAW : UInt32 := 0x10000000

def ascii (s : String) : List UInt8 := s.toList.map fun c => UInt8.ofNat c.toNat

def MODULE_NAME : List UInt8 := ascii "kvnet"

/-- The string at the start of a buffer. -/
def cString (buf : List UInt8) : List UInt8 := buf.takeWhile (· ≠ 0)

/-- vsnprintf: what is written to a buffer of a size, the terminator included. -/
def vsnprintf (size : Nat) (text : List UInt8) : List UInt8 :=
  if size = 0 then [] else text.take (size - 1) ++ [0]

/-- What trace writes to each buffer, from its start on, and hands to printk. -/
structure TraceRun where
  dbgbuf1 : List UInt8
  dbgbuf2 : List UInt8
  printed : List UInt8

def trace (flag : UInt32) (text : List UInt8) : TraceRun :=
  let dbgbuf1 := vsnprintf (256 - 1) text
  if flag &&& LOG_RAW ≠ 0 then ⟨dbgbuf1, [], cString dbgbuf1⟩
  else
    let dbgbuf2 := MODULE_NAME ++ ascii "!" ++ cString dbgbuf1 ++ ascii "\n" ++ [0]
    ⟨dbgbuf1, dbgbuf2, cString dbgbuf2⟩

/-- The condition of the TRACE macro, which evaluates its arguments only then. -/
def traced (debug : Bool) (flag : UInt32) : Bool := flag &&& LOG_DBG = 0 || debug

/-- Both buffers hold 256 bytes. -/
structure TraceRun.InBounds (run : TraceRun) : Prop where
  first : run.dbgbuf1.length ≤ 256
  second : run.dbgbuf2.length ≤ 256

theorem vsnprintf_length_le (size : Nat) (text : List UInt8) :
    (vsnprintf size text).length ≤ size := by
  rw [vsnprintf]
  by_cases none : size = 0
  · rw [if_pos none]
    exact Nat.zero_le size
  · rw [if_neg none, List.length_append, List.length_take, List.length_singleton]
    omega

theorem cString_cut (text : List UInt8) (n : Nat) :
    (cString (text.take n ++ [0])).length = min n (cString text).length := by
  induction text generalizing n with
  | nil => simp [cString]
  | cons c text ih =>
    cases n with
    | zero => simp [cString]
    | succ n =>
      by_cases ends : c = 0
      · simp [cString, ends]
      · have rest := ih n
        simp only [cString] at rest
        simp only [cString, List.take_succ_cons, List.cons_append, ne_eq, ends, not_false_eq_true,
          decide_true, List.takeWhile_cons_of_pos, List.length_cons, rest]
        omega

theorem MODULE_NAME_length : MODULE_NAME.length = 5 := rfl

theorem trace_second_length {flag : UInt32} (text : List UInt8) (cooked : flag &&& LOG_RAW = 0) :
    (trace flag text).dbgbuf2.length = min 254 (cString text).length + 8 := by
  have raw : ¬ flag &&& LOG_RAW ≠ 0 := not_not.mpr cooked
  have cut : (cString (vsnprintf (256 - 1) text)).length = min 254 (cString text).length :=
    cString_cut text 254
  have mark : (ascii "!").length = 1 := rfl
  have newline : (ascii "\n").length = 1 := rfl
  rw [trace, if_neg raw, List.length_append, List.length_append, List.length_append,
    List.length_append, cut, MODULE_NAME_length, mark, newline, List.length_singleton]
  omega

/-- A line that is not raw stays in its buffers exactly when its text has at
most 248 bytes. -/
theorem trace_in_bounds_iff (flag : UInt32) (text : List UInt8) (cooked : flag &&& LOG_RAW = 0) :
    (trace flag text).InBounds ↔ (cString text).length ≤ 248 := by
  have second := trace_second_length text cooked
  constructor
  · intro bounds
    have upTo := bounds.second
    omega
  · intro short
    constructor
    · have first : (trace flag text).dbgbuf1 = vsnprintf (256 - 1) text := by
        rw [trace]
        split
        · rfl
        · rfl
      rw [first]
      exact Nat.le_succ_of_le (vsnprintf_length_le 255 text)
    · omega

theorem trace_in_bounds_entry : (trace LOG_INFO (ascii "dump_skb: ==>")).InBounds :=
  (trace_in_bounds_iff LOG_INFO (ascii "dump_skb: ==>") (by decide)).mpr (by decide +kernel)

/-- A text of 249 bytes takes one byte too many. -/
theorem long_trace_overruns : ¬ (trace LOG_DBG (List.replicate 249 0x61)).InBounds := by
  intro bounds
  have second := bounds.second
  rw [trace_second_length _ (by decide)] at second
  exact absurd second (by decide +kernel)

end Kvnet
