import Rsc.EndToEnd.MockLogin

/-!
The secrets of both sides: what `rsc/src/auth/pkce.rs` draws and what `rsc-mock` draws and
checks. All of them are encodings of 32 bytes (`secrets`).
-/

namespace Rsc.EndToEnd

open Rsc.Library Rsc.Auth Rsc.Mock Rsc.Mock.Store Rsc.Mock.Pkce

/-- 43 letters, digits, `-` and `_`. -/
structure Shaped (text : String) : Prop where
  length : text.toList.length = 43
  alphabet : ∀ c ∈ text.toList, c.isAlphanum = true ∨ c = '-' ∨ c = '_'

/-- The mock, with base64 and this digest. -/
def hashing (sha256 : List UInt8 → List UInt8) : Hashing := ⟨sha256, Base64.urlSafe⟩

/-- A form carries the text as it is. -/
def Unescaped (text : String) : Prop := FormUrlEncoded.encodeText text = Utf8.encode text

/-- What is demanded of the secrets, for every draw of the random generators. -/
structure Secrets (sha256 : List UInt8 → List UInt8) : Prop where
  encoding : ∀ draw : Draw, Shaped (Base64.urlSafe draw.1)
  injective : ∀ draw draw' : Draw, Base64.urlSafe draw.1 = Base64.urlSafe draw'.1 → draw = draw'
  credential : ∀ draw, Shaped (randomCredential draw) ∧ Unescaped (randomCredential draw)
  state : ∀ draw, Shaped (randomState draw) ∧ Unescaped (randomState draw)
  verifier : ∀ draw, Shaped (generate sha256 draw).verifier ∧
    Unescaped (generate sha256 draw).verifier ∧
    isValidVerifier (generate sha256 draw).verifier = true
  challenge : ∀ draw, Shaped (generate sha256 draw).challenge ∧
    isValidChallenge (generate sha256 draw).challenge = true
  s256Challenge : ∀ verifier, Shaped (s256Challenge (hashing sha256) verifier)
  verifies : ∀ draw, verifyS256 (hashing sha256) (generate sha256 draw).verifier
    (generate sha256 draw).challenge = true

theorem toList_urlSafe (bytes : List UInt8) : (Base64.urlSafe bytes).toList =
    (Base64.encodeBytes bytes).map fun b => Char.ofNat b.toNat := String.toList_ofList

theorem shaped_urlSafe {bytes : List UInt8} (h : bytes.length = 32) :
    Shaped (Base64.urlSafe bytes) := by
  constructor
  · rw [toList_urlSafe, List.length_map, Base64.length_encodeBytes, h]
  · intro c hc
    rw [toList_urlSafe] at hc
    obtain ⟨b, hb, rfl⟩ := List.mem_map.mp hc
    have hall : ∀ b, Base64.isUrlSafe b = true → (Char.ofNat b.toNat).isAlphanum = true ∨
        Char.ofNat b.toNat = '-' ∨ Char.ofNat b.toNat = '_' := Utf8.forall_byte (by decide +kernel)
    exact hall b (Base64.isUrlSafe_encodeBytes hb)

theorem unescaped_urlSafe (draw : Draw) : Unescaped (Base64.urlSafe draw.1) :=
  FormUrlEncoded.encodeText_of_isUnchanged (Authorize.plain_randomCredential draw)

/-- Every generated secret has the shape that its consumers demand. -/
theorem secrets {sha256 : List UInt8 → List UInt8} (hsha256 : ∀ bytes, (sha256 bytes).length = 32) :
    Secrets sha256 where
  encoding draw := shaped_urlSafe draw.2
  injective draw draw' h := Subtype.ext (Base64.urlSafe_inj (draw.2.trans draw'.2.symm) h)
  credential draw := ⟨shaped_urlSafe draw.2, unescaped_urlSafe draw⟩
  state draw := ⟨shaped_urlSafe draw.2, unescaped_urlSafe draw⟩
  verifier draw := ⟨shaped_urlSafe draw.2, unescaped_urlSafe draw, isValidVerifier_randomToken draw⟩
  challenge _ := ⟨shaped_urlSafe (hsha256 _), isValidChallenge_urlSafe (hsha256 _)⟩
  s256Challenge _ := shaped_urlSafe (hsha256 _)
  verifies draw := (verifyS256_iff _ _ _).mpr ⟨isValidVerifier_randomToken draw, rfl⟩

/-- The verifier and the challenge of RFC 7636, appendix B. -/
theorem secrets_appendixB : Secrets appendixB.sha256 ∧
    (generate appendixB.sha256 appendixDraw).verifier =
      "dBjftJeZ4CVP-mB92K27uhbUJU1p1r_wW1gFWFOEjXk" ∧
    (generate appendixB.sha256 appendixDraw).challenge =
      "E9Melhoa2OwvFrEMTJguCHaoeK1t8URWbuGJSstw-cM" := by
  refine ⟨secrets fun _ => rfl, ?_, ?_⟩
  · decide +kernel
  · decide +kernel

end Rsc.EndToEnd
