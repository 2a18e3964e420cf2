import Ok3506.Lib.Lines
import Ok3506.Dbb.AtResponse
import Ok3506.Eth4g.Device

/-!
What a successful AT command says about its response.

`dbb_at_expect` and `eth_4g_at_expect` search the captured text for `OK` and for the
expected text, wherever they stand. A final result code is a line of its own:
`OkLine` and `ErrorLine` say what the module answered. The search finds every `OK`
line, but also an `OK` inside an unsolicited code, an echo or a longer word, and it
does not look for error codes.
-/

namespace Ok3506.At

open CString Dbb

/-- The characters that end a line. -/
def isLineEnd (c : UInt8) : Bool := c == 13 || c == 10

/-- The lines of a response. -/
def responseLines (text : List UInt8) : List (List UInt8) := text.splitOnP isLineEnd

/-- The module answered with the final result code OK. -/
def OkLine (text : List UInt8) : Prop := ascii "OK" ∈ responseLines text

/-- The module answered with a final error code. -/
def ErrorLine (text : List UInt8) : Prop :=
  ∃ line ∈ responseLines text,
    line = ascii "ERROR" ∨ ascii "+CME ERROR" <+: line ∨ ascii "+CMS ERROR" <+: line

/-- The text holds OK and, if one is given, the expected text, at any place. -/
def Matches (text : List UInt8) (expect : Option (List UInt8)) : Prop :=
  ascii "OK" <:+: text ∧ ∀ e ∈ expect, e <:+: text

/-- An OK line is an occurrence of OK with a line end, or an end of the text, on
either side. -/
theorem okLine_iff {text : List UInt8} :
    OkLine text ↔ ∃ before after, text = before ++ ascii "OK" ++ after ∧
      Lines.Bounded isLineEnd before after := by
  have solid : ∀ c ∈ ascii "OK", isLineEnd c = false := by
    have none_ends : (ascii "OK").any isLineEnd = false := by decide
    simpa using none_ends
  rw [OkLine, responseLines, Lines.mem_splitOnP_iff]
  exact and_iff_right solid

/-- Every OK line is found. -/
theorem infix_of_okLine {text : List UInt8} (line : OkLine text) : ascii "OK" <:+: text := by
  obtain ⟨before, after, rfl, -⟩ := okLine_iff.mp line
  exact List.infix_append before (ascii "OK") after

/-! ### The two functions -/

/-- The response that `dbb_at_expect` searches. -/
def dbbResponse (cmd : List UInt8) (answer : PortAnswer) : Option (List UInt8) :=
  let captured := (dbbCaptureResponse (some cmd) maxResponse atTimeoutMs answer).1
  if captured.ret = 0 then some (cstr captured.used) else none

theorem dbbAtExpect_ok (cmd : List UInt8) (expect : Option (List UInt8)) (answer : PortAnswer) :
    (dbbAtExpect cmd expect answer).ok = true ↔
      ∃ text, dbbResponse cmd answer = some text ∧ Matches text expect := by
  simp only [dbbAtExpect, dbbResponse, Matches, ← contains_iff_infix, decide_eq_true_eq]
  split
  case isTrue captured => simp [captured]
  case isFalse failed => simp [failed]

/-- The response that `eth_4g_at_expect` searches. -/
def ethResponse (cmd : List UInt8) (w : Eth4g.World) : Option (List UInt8) :=
  ((Eth4g.captureAtResponse cmd).run w).1

theorem ethAtExpect_ok (cmd expect : List UInt8) (w : Eth4g.World) :
    ((Eth4g.atExpect cmd expect).run w).1 = true ↔
      ∃ text, ethResponse cmd w = some text ∧ Matches text (some expect) := by
  have run : ((Eth4g.atExpect cmd expect).run w).1 =
      (ethResponse cmd w).any fun text => contains text (ascii "OK") && contains text expect := by
    unfold ethResponse Eth4g.atExpect
    simp only [StateT.run, StateT.bind, bind]
    rcases Eth4g.captureAtResponse cmd w with ⟨_ | text, w'⟩
    · rfl
    · rfl
  rw [run]
  cases ethResponse cmd w with
  | none => simp
  | some text => simp [Matches, contains_iff_infix]

/-! ### What success says -/

/-- **Success says that OK and the expected text were found**, at any place. Every OK
line is found; whether the OK that was found is one is decided by what stands around
it, and no line that is an error code prevents success. -/
theorem atExpect_found :
    (∀ cmd expect answer, (dbbAtExpect cmd expect answer).ok = true ↔
      ∃ text, dbbResponse cmd answer = some text ∧ Matches text expect) ∧
    (∀ cmd expect w, ((Eth4g.atExpect cmd expect).run w).1 = true ↔
      ∃ text, ethResponse cmd w = some text ∧ Matches text (some expect)) ∧
    (∀ text, OkLine text ↔ ∃ before after, text = before ++ ascii "OK" ++ after ∧
      Lines.Bounded isLineEnd before after) ∧
    ∀ text expect, OkLine text → (∀ e ∈ expect, e <:+: text) → Matches text expect :=
  ⟨dbbAtExpect_ok, ethAtExpect_ok, fun _ => okLine_iff,
    fun _ _ line expected => ⟨infix_of_okLine line, expected⟩⟩

/-- An unsolicited code whose payload contains OK, and then an error. -/
def bookResponse : List UInt8 := ascii "\r\n+CUSD: 0,\"BOOKING\"\r\n\r\nERROR\r\n"

/-- Both functions take it for a success. -/
theorem error_taken_for_ok :
    (dbbAtExpect (ascii "AT+CFUN=5") (some (ascii "OK")) { read := [.read bookResponse] }).ok =
        true ∧
      dbbResponse (ascii "AT+CFUN=5") { read := [.read bookResponse] } = some bookResponse ∧
      ((Eth4g.atExpect (ascii "AT+CFUN=1") (ascii "OK")).run
        { ctrl := { fd := 3 }, answers := [{ port := { read := [.read bookResponse] } }] }).1 =
        true ∧
      ethResponse (ascii "AT+CFUN=1")
        { ctrl := { fd := 3 }, answers := [{ port := { read := [.read bookResponse] } }] } =
        some bookResponse ∧
      ¬ OkLine bookResponse ∧ ErrorLine bookResponse := by
  have lines : responseLines bookResponse =
      [[], [], ascii "+CUSD: 0,\"BOOKING\"", [], [], [], ascii "ERROR", [], []] := by
    decide +kernel
  refine ⟨by decide +kernel, by decide +kernel, by decide +kernel, by decide +kernel, ?_, ?_⟩
  · rw [OkLine, lines]
    decide
  · exact ⟨ascii "ERROR", by rw [lines]; decide, .inl rfl⟩

end Ok3506.At
