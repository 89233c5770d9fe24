import Rsc.Library.FormUrlEncoded
import Rsc.Library.Text

/-!
HTTP requests, in the types of Rust's `http` crate.
-/

namespace Rsc.Library.Http

inductive Method
  | get
  | head
  | post
  | other (name : String)
  deriving DecidableEq, Repr

inductive HeaderName
  | allow
  | authorization
  | cacheControl
  | contentLength
  | contentType
  | location
  | pragma
  | wwwAuthenticate
  | other (name : String)
  deriving DecidableEq, Repr

/-! ## Header values -/

/-- A byte that a header value may hold: no control character but the tab. -/
def isHeaderByte (b : UInt8) : Bool := (32 ≤ b && b != 127) || b == 9

@[ext]
structure HeaderValue where
  bytes : List UInt8
  valid : bytes.all isHeaderByte = true
  deriving DecidableEq

/-- `HeaderValue::try_from` of a `String`. -/
def HeaderValue.tryFrom (text : String) : Option HeaderValue :=
  if h : (Utf8.encode text).all isHeaderByte = true then some ⟨Utf8.encode text, h⟩ else none

/-- `HeaderValue::from_static`. -/
def HeaderValue.fromStatic (text : String)
    (h : (Utf8.encode text).all isHeaderByte = true := by decide +kernel) : HeaderValue :=
  ⟨Utf8.encode text, h⟩

/-- Printable ASCII or a tab. -/
def isVisibleAscii (b : UInt8) : Bool := (32 ≤ b && b < 127) || b == 9

/-- `HeaderValue::to_str`: none when a byte is not visible ASCII. -/
def HeaderValue.toStr (value : HeaderValue) : Option (List Char) :=
  if value.bytes.all isVisibleAscii then some (Utf8.ascii value.bytes).toList else none

/-- `HeaderMap`: the headers in order, a name perhaps several times. -/
abbrev HeaderMap := List (HeaderName × HeaderValue)

namespace HeaderMap

/-- `HeaderMap::get_all`. -/
def getAll (headers : HeaderMap) (name : HeaderName) : List HeaderValue :=
  (headers.filter (·.1 == name)).map (·.2)

/-- `HeaderMap::get`: the first value. -/
def get (headers : HeaderMap) (name : HeaderName) : Option HeaderValue :=
  (headers.getAll name).head?

/-- `HeaderMap::contains_key`. -/
def containsKey (headers : HeaderMap) (name : HeaderName) : Bool := (headers.get name).isSome

/-- `HeaderMap::insert`: the value replaces the others of the name. -/
def insert (headers : HeaderMap) (name : HeaderName) (value : HeaderValue) : HeaderMap :=
  headers.filter (·.1 != name) ++ [(name, value)]

theorem get_eq_none {headers : HeaderMap} {name : HeaderName}
    (h : ∀ value, (name, value) ∉ headers) : headers.get name = none := by
  rw [get, getAll, List.head?_eq_none_iff, List.map_eq_nil_iff, List.filter_eq_nil_iff]
  rintro ⟨other, value⟩ hmem heq
  obtain rfl : other = name := beq_iff_eq.mp heq
  exact h value hmem

end HeaderMap

/-! ## Requests -/

/-- A frame of a request body: data, trailers, or the failure that ends it. -/
inductive Frame
  | data (bytes : List UInt8)
  | trailers
  | error
  deriving DecidableEq, Repr

structure Request where
  method : Method
  /-- The query of the target, `none` without a `?`. -/
  query : Option (List UInt8)
  headers : HeaderMap
  body : List Frame

/-- The bytes of a frame. -/
def Frame.bytes : Frame → List UInt8
  | .data bytes => bytes
  | _ => []

/-! ## Forms -/

theorem isDigit_bounds {c : Char} (h : c.isDigit = true) : 48 ≤ c.toNat ∧ c.toNat ≤ 57 := by
  have hdigit : c.isDigit = (decide (48 ≤ c.val) && decide (c.val ≤ 57)) := rfl
  rw [hdigit, Bool.and_eq_true, decide_eq_true_eq, decide_eq_true_eq] at h
  exact h

/-- The byte of a digit. -/
def digitByte (c : Char) : UInt8 := .ofNat c.toNat

theorem toNat_digitByte {c : Char} (h : c.isDigit = true) : (digitByte c).toNat = c.toNat := by
  have hbounds := isDigit_bounds h
  rw [digitByte, UInt8.toNat_ofNat']
  exact Nat.mod_eq_of_lt (by omega)

/-- A number in decimal. -/
def HeaderValue.ofNat (n : Nat) : HeaderValue where
  bytes := (Nat.toDigits 10 n).map digitByte
  valid := by
    rw [List.all_map, List.all_eq_true]
    intro c hc
    have hdigit := Text.isDigit_of_mem hc
    have hbounds := isDigit_bounds hdigit
    have hall : ∀ b : UInt8, 48 ≤ b.toNat ∧ b.toNat ≤ 57 → isHeaderByte b = true :=
      Utf8.forall_byte (by decide +kernel)
    exact hall _ (by rwa [toNat_digitByte hdigit])

theorem HeaderValue.toStr_ofNat (n : Nat) :
    (HeaderValue.ofNat n).toStr = some (Nat.toDigits 10 n) := by
  have hdigit : ∀ c ∈ Nat.toDigits 10 n, c.isDigit = true := 
    fun _ => Text.isDigit_of_mem
  have hvisible : ((Nat.toDigits 10 n).map digitByte).all isVisibleAscii = true := by
    rw [List.all_map, List.all_eq_true]
    intro c hc
    have hbounds := isDigit_bounds (hdigit c hc)
    have hall : ∀ b : UInt8, 48 ≤ b.toNat ∧ b.toNat ≤ 57 → isVisibleAscii b = true :=
      Utf8.forall_byte (by decide +kernel)
    exact hall _ (by rwa [toNat_digitByte (hdigit c hc)])
  have hchars : (Nat.toDigits 10 n).map (fun c => Char.ofNat (digitByte c).toNat) =
      Nat.toDigits 10 n := by
    conv_rhs => rw [← List.map_id (Nat.toDigits 10 n)]
    apply List.map_congr_left
    intro c hc
    rw [toNat_digitByte (hdigit c hc), Char.ofNat_toNat, id]
  rw [HeaderValue.toStr, HeaderValue.ofNat, if_pos hvisible, Utf8.ascii, String.toList_ofList,
    List.map_map]
  exact congrArg some hchars

/-- The media type of a form. -/
def formUrlEncoded : HeaderValue := .fromStatic "application/x-www-form-urlencoded"

/-- The request posts the form as an HTTP client does, the body in any frames, with any
other headers. -/
structure PostsForm (request : Request) (form : List (String × String)) : Prop where
  method : request.method = .post
  contentType : request.headers.getAll .contentType = [formUrlEncoded]
  contentLength : request.headers.getAll .contentLength =
    [.ofNat (FormUrlEncoded.serializeBytes form).length]
  authorization : request.headers.getAll .authorization = []
  complete : Frame.error ∉ request.body
  bytes : request.body.flatMap Frame.bytes = FormUrlEncoded.serializeBytes form

/-- `RequestBuilder::form`. -/
def formPost (form : List (String × String)) : Request where
  method := .post
  query := none
  headers := [(.contentType, formUrlEncoded),
    (.contentLength, .ofNat (FormUrlEncoded.serializeBytes form).length)]
  body := [.data (FormUrlEncoded.serializeBytes form)]

theorem postsForm_formPost (form : List (String × String)) : PostsForm (formPost form) form where
  method := rfl
  contentType := rfl
  contentLength := rfl
  authorization := rfl
  complete := by simp [formPost]
  bytes := by simp [formPost, Frame.bytes]

end Rsc.Library.Http
