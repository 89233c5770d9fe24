import Rsc.EndToEnd.MockLogin

/-!
The callback listener of `rsc` reads what the mock's redirect says: the code or the error is
read back for the state that was sent, and for no other state.
-/

namespace Rsc.EndToEnd

open Rsc.Library Rsc.Library.Http Rsc.Auth Rsc.Mock Rsc.Mock.Authorize

/-- The request line that the browser sends after the redirect with the parameter. -/
def LeadsTo (redirect : Redirect) (name value : String) (line : List Char) : Prop :=
  ∃ response location, redirect.to name value = .ok response ∧
    response.headers.getAll .location = [location] ∧ browserLine location = line

variable {state : Option String} {name value : String}

theorem isControl_redirectUri (port : UInt16) :
    ∀ c ∈ (redirectUri port).toList, MockConfig.isControl c = false := by
  have hplain : ∀ text : List Char, text.any MockConfig.isControl = false →
      ∀ c ∈ text, MockConfig.isControl c = false := by
    intro text h c hc
    simpa using List.any_eq_false.mp h c hc
  rw [toList_redirectUri]
  intro c hc
  simp only [List.mem_append] at hc
  rcases hc with hc | hc | hc | hc
  · exact hplain _ rfl c hc
  · exact hplain _ rfl c hc
  · have hdigit := Text.isDigit_of_mem hc
    simp only [Char.isDigit, Bool.and_eq_true, decide_eq_true_eq, ge_iff_le, UInt32.le_iff_toNat_le]
      at hdigit
    simp only [MockConfig.isControl, Char.toNat]
    grind
  · exact hplain _ rfl c hc

/-- The callback is answered by the parameters of the redirect and nothing else. -/
theorem leadsTo_callback (port : UInt16) (state : Option String) (name value : String) :
    ∃ line, LeadsTo ⟨redirectUri port, state⟩ name value line ∧
      ∀ expectedState, parseRequestLine line expectedState =
        callbackCode (Redirect.parameters ⟨redirectUri port, state⟩ name value) expectedState := by
  obtain ⟨response, hresponse, hredirects⟩ :=
    to_eq_ok ⟨redirectUri port, state⟩ (isControl_redirectUri port) name value
  obtain ⟨location, hlocation, hbytes⟩ := hredirects.location
  rw [Redirect.text, separator_redirectUri] at hbytes
  generalize Redirect.parameters ⟨redirectUri port, state⟩ name value = parameters at hbytes ⊢
  have hvisible : ∀ c : Char, c.toNat < 37 → c ∉ (FormUrlEncoded.serialize parameters).toList := by
    intro c hc hmem
    have hle := FormUrlEncoded.le_toNat_of_mem_serialize hmem
    omega
  refine ⟨_, ⟨response, location, hresponse, hlocation,
    browserLine_redirectUri hbytes (hvisible '#' (by decide))⟩, fun expectedState => ?_⟩
  rw [parseRequestLine_callbackLine (hvisible ' ' (by decide)), FormUrlEncoded.parse_serialize]

theorem stateMismatch_of_ne {expectedState : String} (hname : name ≠ "state")
    (hstate : state ≠ some expectedState) (base : String) :
    callbackCode (Redirect.parameters ⟨base, state⟩ name value) expectedState =
      .error .stateMismatch := by
  rw [callbackCode_eq_stateMismatch, ← param_eq_some]
  have hfind : param (Redirect.parameters ⟨base, state⟩ name value) "state" = state := by
    cases state <;> simp [param, Redirect.parameters, hname]
  rwa [hfind]

/-- The parser undoes the redirect: the code or the error is read back for the state that the
redirect carries, whatever that is, and for no other expected state. -/
theorem parseRequestLine_redirect (port : UInt16) (state : String) :
    (∀ code, code ≠ "" → ∃ line, LeadsTo ⟨redirectUri port, some state⟩ "code" code line ∧
      parseRequestLine line state = .ok code ∧
      ∀ expectedState, expectedState ≠ state →
        parseRequestLine line expectedState = .error .stateMismatch) ∧
    (∀ error, ∃ line, LeadsTo ⟨redirectUri port, some state⟩ "error" error line ∧
      parseRequestLine line state = .error (.denied error) ∧
      ∀ expectedState, expectedState ≠ state →
        parseRequestLine line expectedState = .error .stateMismatch) ∧
    ∀ name value, name ≠ "state" → ∃ line, LeadsTo ⟨redirectUri port, none⟩ name value line ∧
      ∀ expectedState, parseRequestLine line expectedState = .error .stateMismatch := by
  have hmismatch : ∀ expectedState, expectedState ≠ state → some state ≠ some expectedState :=
    fun expectedState hne h => hne (Option.some.inj h).symm
  refine ⟨fun code hcode => ?_, fun error => ?_, fun name value hname => ?_⟩
  · obtain ⟨line, hline, hparse⟩ := leadsTo_callback port (some state) "code" code
    refine ⟨line, hline, ?_, fun expectedState hne => ?_⟩
    · rw [hparse, callbackCode_eq_ok]
      exact ⟨param_eq_some.mp rfl, param_eq_none.mp rfl, param_eq_some.mp rfl, hcode⟩
    · rw [hparse, stateMismatch_of_ne (by decide) (hmismatch _ hne)]
  · obtain ⟨line, hline, hparse⟩ := leadsTo_callback port (some state) "error" error
    refine ⟨line, hline, ?_, fun expectedState hne => ?_⟩
    · rw [hparse, callbackCode_eq_denied]
      exact ⟨param_eq_some.mp rfl, param_eq_some.mp rfl⟩
    · rw [hparse, stateMismatch_of_ne (by decide) (hmismatch _ hne)]
  · obtain ⟨line, hline, hparse⟩ := leadsTo_callback port none name value
    refine ⟨line, hline, fun expectedState => ?_⟩
    rw [hparse, stateMismatch_of_ne hname (Option.some_ne_none _).symm]

end Rsc.EndToEnd
