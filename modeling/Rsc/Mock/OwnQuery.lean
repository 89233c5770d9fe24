import Rsc.Mock.Redirects

/-!
What a redirect makes of the query that the registered URI already has: the pairs of that
query stay, and the parameters of the redirect follow.
-/

namespace Rsc.Mock.Authorize

open Rsc.Library Rsc.Library.Http

/-- The bytes after the first `?`. -/
def afterQuestion (bytes : List UInt8) : List UInt8 := (bytes.dropWhile (· != 63)).drop 1

/-- The redirect succeeds, keeps the URI as it is, and appends exactly its parameters to the
query of the URI. -/
def Appends (redirect : Redirect) (name value : String) : Prop :=
  ∃ response location text, redirect.to name value = .ok response ∧
    response.headers.getAll .location = [location] ∧
    location.bytes = Utf8.encode redirect.base ++ text ∧
    (∀ b ∈ text, 32 < b ∧ b < 127 ∧ b ≠ 35) ∧
    FormUrlEncoded.parse (afterQuestion location.bytes) =
      FormUrlEncoded.parse (afterQuestion (Utf8.encode redirect.base)) ++
        redirect.parameters name value

/-- The text ends in a `?` that is not its first one. -/
def EndsInLaterQuestion (text : String) : Prop :=
  ∃ before, text.toList = before ++ ['?'] ∧ '?' ∈ before

variable {base name value : String} {state : Option String}

theorem afterQuestion_append {before : List UInt8} (h : 63 ∉ before) (after : List UInt8) :
    afterQuestion (before ++ 63 :: after) = after := by
  have hbefore : ∀ b ∈ before, (b != 63) = true := fun b hb => bne_iff_ne.mpr fun heq => h (heq ▸ hb)
  rw [afterQuestion, List.dropWhile_append_of_pos hbefore]
  rfl

theorem afterQuestion_of_notMem {bytes : List UInt8} (h : 63 ∉ bytes) : afterQuestion bytes = [] := by
  have hbytes : ∀ b ∈ bytes, (b != 63) = true := fun b hb => bne_iff_ne.mpr fun heq => h (heq ▸ hb)
  rw [afterQuestion, List.dropWhile_eq_nil_iff.mpr hbytes, List.drop_nil]

/-- The URI up to its first `?`, and its query. -/
theorem exists_query (h : '?' ∈ base.toList) : ∃ before query : String,
    base = before ++ ("?" ++ query) ∧ '?' ∉ before.toList := by
  obtain ⟨before, after, hbase, hnot⟩ := List.eq_append_cons_of_mem h
  refine ⟨.ofList before, .ofList after, ?_, by rwa [String.toList_ofList]⟩
  rw [← String.toList_inj]
  simp [hbase]

/-- What stands between the URI and the parameters, by the URI's own query. -/
theorem separator_of_query {before query : String} (hbase : base = before ++ ("?" ++ query)) :
    separator base =
      if query = "" ∨ query.toList.getLast? = some '?' ∨ query.toList.getLast? = some '&' then ""
      else "&" := by
  have hlist : base.toList = before.toList ++ '?' :: query.toList := by simp [hbase]
  have hlast : base.toList.getLast? = query.toList.getLast?.or (some '?') := by
    rw [hlist, List.getLast?_append_cons, List.getLast?_cons]
    cases query.toList.getLast? <;> rfl
  rw [separator, if_neg (by simp [hlist]), hlast]
  by_cases hquery : query = ""
  · subst hquery
    rfl
  · have hne : query.toList ≠ [] := by simpa using hquery
    rw [List.getLast?_eq_some_getLast hne]
    simp [hquery]

theorem endsInLaterQuestion_iff {before query : String} (hbase : base = before ++ ("?" ++ query))
    (hbefore : '?' ∉ before.toList) :
    EndsInLaterQuestion base ↔ query.toList.getLast? = some '?' := by
  have hlist : base.toList = before.toList ++ '?' :: query.toList := by simp [hbase]
  rw [EndsInLaterQuestion, hlist, List.getLast?_eq_some_iff]
  constructor
  · rintro ⟨most, hmost, hmem⟩
    rcases List.eq_nil_or_concat query.toList with hquery | ⟨init, last, hquery⟩
    · rw [hquery] at hmost
      exact absurd ((List.append_inj_left' hmost rfl) ▸ hmem) hbefore
    · rw [List.concat_eq_append] at hquery
      rw [hquery, ← List.cons_append, ← List.append_assoc] at hmost
      exact ⟨init, hquery.trans (congrArg _ (List.append_inj_right' hmost rfl))⟩
  · rintro ⟨init, hquery⟩
    refine ⟨before.toList ++ '?' :: init, ?_, by simp⟩
    rw [hquery, List.append_assoc, List.cons_append]

theorem encode_question : Utf8.encode "?" = [63] := by decide +kernel

theorem question_notMem {text : String} (h : '?' ∉ text.toList) : 63 ∉ Utf8.encode text :=
  Utf8.notMem_encode (by decide) h

theorem afterQuestion_encode {before : String} (hbefore : '?' ∉ before.toList) (query : String) :
    afterQuestion (Utf8.encode (before ++ ("?" ++ query))) = Utf8.encode query := by
  rw [Utf8.encode_append, Utf8.encode_append, encode_question, List.singleton_append,
    afterQuestion_append (question_notMem hbefore)]

/-- A query that ends in `&` or nothing is continued, another gets an `&`, and the pairs of
both are read. -/
theorem parse_continued {query : String} (hquery : query.toList.getLast? ≠ some '?')
    (parameters : List (String × String)) :
    FormUrlEncoded.parse (Utf8.encode (query ++
      ((if query = "" ∨ query.toList.getLast? = some '?' ∨ query.toList.getLast? = some '&' then ""
        else "&") ++ FormUrlEncoded.serialize parameters))) =
      FormUrlEncoded.parse (Utf8.encode query) ++ parameters := by
  have hamp : Utf8.encode "&" = [38] := by decide +kernel
  rw [Utf8.encode_append, Utf8.encode_append, FormUrlEncoded.encode_serialize]
  split
  · next h =>
    rcases h with rfl | h | h
    · exact FormUrlEncoded.parse_serializeBytes parameters
    · exact absurd h hquery
    · obtain ⟨init, hinit⟩ := List.getLast?_eq_some_iff.mp h
      have hencode : Utf8.encode query = Utf8.encode (.ofList init) ++ [38] := by
        rw [← hamp, ← Utf8.encode_append, Utf8.encode_inj, ← String.toList_inj, hinit]
        simp
      have hempty : FormUrlEncoded.parse [] = [] := rfl
      rw [hencode, List.append_assoc]
      show FormUrlEncoded.parse (_ ++ 38 :: FormUrlEncoded.serializeBytes parameters) = _
      rw [FormUrlEncoded.parse_append, FormUrlEncoded.parse_append,
        FormUrlEncoded.parse_serializeBytes, hempty, List.append_nil]
  · rw [hamp, List.singleton_append, FormUrlEncoded.parse_append,
      FormUrlEncoded.parse_serializeBytes]

/-- After a `?` that ends the query the first parameter is read as a part of the last pair. -/
theorem parse_merged {query : String} (hquery : query.toList.getLast? = some '?')
    (pair : String × String) (pairs : List (String × String)) :
    FormUrlEncoded.parse (Utf8.encode (query ++ FormUrlEncoded.serialize (pair :: pairs))) ≠
      FormUrlEncoded.parse (Utf8.encode query) ++ pair :: pairs := by
  obtain ⟨init, hinit⟩ := List.getLast?_eq_some_iff.mp hquery
  have hencode : Utf8.encode query = Utf8.encode (.ofList init) ++ [63] := by
    rw [← encode_question, ← Utf8.encode_append, Utf8.encode_inj, ← String.toList_inj, hinit]
    simp
  rw [Utf8.encode_append, FormUrlEncoded.encode_serialize, hencode, List.append_assoc]
  intro h
  have hlength := FormUrlEncoded.length_parse_append (show (63 : UInt8) ≠ 38 by decide)
    (Utf8.encode (.ofList init)) pair pairs
  rw [← List.singleton_append, h, List.length_append, List.length_cons] at hlength
  omega

/-- The parameters are read back after the pairs of the URI's own query, unless the URI ends
in a `?` that does not begin the query. -/
theorem parse_ownQuery (redirect : Redirect) (name value : String) :
    FormUrlEncoded.parse (afterQuestion (Utf8.encode (redirect.base ++ redirect.text name value))) =
        FormUrlEncoded.parse (afterQuestion (Utf8.encode redirect.base)) ++
          redirect.parameters name value ↔
      ¬ EndsInLaterQuestion redirect.base := by
  by_cases h : '?' ∈ redirect.base.toList
  · obtain ⟨before, query, hbase, hbefore⟩ := exists_query h
    have htext : redirect.base ++ redirect.text name value = before ++ ("?" ++ (query ++
        (separator redirect.base ++ FormUrlEncoded.serialize (redirect.parameters name value)))) := by
      simp only [Redirect.text, hbase, String.append_assoc]
    rw [htext, afterQuestion_encode hbefore, endsInLaterQuestion_iff hbase hbefore,
      separator_of_query hbase]
    conv_lhs => rw [hbase, afterQuestion_encode hbefore]
    constructor
    · intro heq hquery
      rw [if_pos (.inr (.inl hquery)), String.empty_append] at heq
      exact parse_merged hquery _ _ heq
    · intro hquery
      exact parse_continued hquery _
  · have hends : ¬ EndsInLaterQuestion redirect.base := by
      rintro ⟨before, hbefore, -⟩
      rw [hbefore] at h
      exact h (by simp)
    have htext : redirect.base ++ redirect.text name value = redirect.base ++ ("?" ++
        FormUrlEncoded.serialize (redirect.parameters name value)) := by
      rw [Redirect.text, separator, if_pos h]
    rw [htext, afterQuestion_encode h, afterQuestion_of_notMem (question_notMem h),
      FormUrlEncoded.parse_serialize]
    exact iff_of_true rfl hends

theorem appends_iff (redirect : Redirect)
    (hbase : ∀ c ∈ redirect.base.toList, MockConfig.isControl c = false) (name value : String) :
    Appends redirect name value ↔ ¬ EndsInLaterQuestion redirect.base := by
  obtain ⟨response, hresponse, hredirects⟩ := to_eq_ok redirect hbase name value
  obtain ⟨location, hlocation, hbytes⟩ := hredirects.location
  rw [← parse_ownQuery redirect name value, ← hbytes]
  constructor
  · rintro ⟨response', location', text, hresponse', hlocation', -, -, hparse⟩
    obtain rfl : response = response' := Except.ok.inj (hresponse.symm.trans hresponse')
    obtain rfl : location = location' := (List.cons.inj (hlocation.symm.trans hlocation')).1
    exact hparse
  · intro hparse
    refine ⟨response, location, Utf8.encode (redirect.text name value), hresponse, hlocation, ?_,
      fun b hb => ?_, hparse⟩
    · rw [hbytes, Utf8.encode_append]
    · have hall : ∀ b : UInt8, 37 ≤ b ∧ b < 127 → 32 < b ∧ b < 127 ∧ b ≠ 35 :=
        Utf8.forall_byte (by decide +kernel)
      exact hall b (visible_of_mem_text redirect name value hb)

/-- A redirect to a registered URI succeeds and keeps the URI as it is. It appends exactly its
parameters if and only if the URI does not end in a `?` other than its first one. -/
theorem to_appends {urlParses : String → Bool} (redirect : Redirect)
    (hbase : MockConfig.checkRedirectUri urlParses redirect.base = .ok ()) (name value : String) :
    (∃ response, redirect.to name value = .ok response ∧
      Redirects response redirect.base (redirect.text name value)) ∧
    (Appends redirect name value ↔ ¬ EndsInLaterQuestion redirect.base) := by
  have hgood := MockConfig.checkRedirectUri_eq_ok.mp hbase
  exact ⟨to_eq_ok redirect hgood.2.2 name value, appends_iff redirect hgood.2.2 name value⟩

/-- The URI of a client with a query. -/
theorem to_appends_query : MockConfig.checkRedirectUri (fun _ => true)
      "http://127.0.0.1/callback?a=b" = .ok () ∧
    Appends ⟨"http://127.0.0.1/callback?a=b", some "s"⟩ "code" "c" := by
  have hbase : MockConfig.checkRedirectUri (fun _ => true) "http://127.0.0.1/callback?a=b" =
      .ok () := rfl
  refine ⟨hbase, ((to_appends ⟨_, some "s"⟩ hbase "code" "c").2).mpr ?_⟩
  rintro ⟨before, hbefore, -⟩
  have hlast := congrArg List.getLast? hbefore
  rw [List.getLast?_concat] at hlast
  exact absurd hlast (by decide)

/-- After the URI `uri?a=b?` the code is read as a part of the value of `a`. -/
theorem to_merges : MockConfig.checkRedirectUri (fun _ => true)
      "http://127.0.0.1/callback?a=b?" = .ok () ∧
    ¬ Appends ⟨"http://127.0.0.1/callback?a=b?", some "s"⟩ "code" "c" := by
  have hbase : MockConfig.checkRedirectUri (fun _ => true) "http://127.0.0.1/callback?a=b?" =
      .ok () := rfl
  have hcontrol := (MockConfig.checkRedirectUri_eq_ok.mp hbase).2.2
  rw [appends_iff ⟨_, some "s"⟩ hcontrol, not_not]
  exact ⟨hbase, "http://127.0.0.1/callback?a=b".toList, by decide, by decide⟩

end Rsc.Mock.Authorize
