import Rsc.Library.UrlParser

/-!
How a reference is written: its scheme, its authority and the segments of its path, read off
its text; and what the states of the parser make of them.
-/

namespace Rsc.Library.UrlParser

/-- The scheme that a reference writes, or else the one of the base, and what follows it. -/
def writtenScheme (base : UrlRecord) (input : List Char) : List Char × List Char :=
  (splitScheme input).getD (base.scheme, input)

/-- A special scheme whose URLs have an authority. -/
def hasAuthority (scheme : List Char) : Bool := isSpecial scheme && scheme != fileScheme

/-- Between the slashes and an authority. -/
def skipSlashes (scheme text : List Char) : List Char :=
  if hasAuthority scheme then text.dropWhile fun c => c == '/' || c == '\\' else text

/-- The text from the authority on, when the reference writes one. Behind a scheme that is not
the one of the base the slashes may be missing. -/
def writtenAuthority (base : UrlRecord) (scheme rest : List Char) : Option (List Char) :=
  if hasAuthority scheme && scheme != base.scheme then some (skipSlashes scheme rest)
  else
    match rest with
    | c :: d :: text =>
        if isSlash scheme c && isSlash scheme d then some (skipSlashes scheme text) else none
    | _ => none

/-- The authority that the text begins with names no host. -/
def NoHost (parseHost : HostParser) (scheme text : List Char) : Prop :=
  if scheme = fileScheme then
    isDriveLetter (text.takeWhile (!isDelimiter scheme ·)) = false ∧
      readFileHost parseHost (text.takeWhile (!isDelimiter scheme ·)) = none
  else readAuthority parseHost scheme (text.takeWhile (!isDelimiter scheme ·)) = none

/-- The reference writes an authority that names no host. -/
def Refused (parseHost : HostParser) (base : UrlRecord) (input : List Char) : Prop :=
  ∃ text, writtenAuthority base (writtenScheme base input).1 (writtenScheme base input).2 =
    some text ∧ NoHost parseHost (writtenScheme base input).1 text

variable {parseHost : HostParser} {base : UrlRecord} {scheme rest : List Char}

theorem authorityState_eq_none (hfile : scheme ≠ fileScheme) :
    authorityState parseHost scheme rest = none ↔ NoHost parseHost scheme rest := by
  rw [NoHost, if_neg hfile, authorityState]
  cases readAuthority parseHost scheme (rest.takeWhile (!isDelimiter scheme ·)) <;> simp

theorem fileHostState_eq_none :
    fileHostState parseHost rest = none ↔ NoHost parseHost fileScheme rest := by
  rw [NoHost, if_pos rfl, fileHostState]
  split
  · next hdrive => simp [hdrive]
  · next hdrive => simp [hdrive]

theorem fileSlashState_eq_none {from? : Option UrlRecord} :
    fileSlashState parseHost from? rest = none ↔
      ∃ c text, rest = c :: text ∧ isSlash fileScheme c = true ∧
        NoHost parseHost fileScheme text := by
  rw [fileSlashState]
  split
  · next h =>
    cases rest with
    | nil => cases h
    | cons c text =>
      have hc : isSlash fileScheme c = true := h
      simp [fileHostState_eq_none, hc]
  · next h =>
    refine iff_of_false ?_ ?_
    · cases fileBase from? <;> simp
    · rintro ⟨c, text, rfl, hc, -⟩
      exact h hc

theorem fileState_eq_none {from? : Option UrlRecord} :
    fileState parseHost from? rest = none ↔
      ∃ c d text, rest = c :: d :: text ∧ isSlash fileScheme c = true ∧
        isSlash fileScheme d = true ∧ NoHost parseHost fileScheme text := by
  rw [fileState]
  split
  · next h =>
    cases rest with
    | nil => cases h
    | cons c rest =>
      have hc : isSlash fileScheme c = true := h
      simp [fileSlashState_eq_none, hc]
  · next h =>
    refine iff_of_false ?_ ?_
    · cases fileBase from? with
      | none => simp
      | some base =>
        dsimp only
        split <;> simp
    · rintro ⟨c, d, text, rfl, hc, -⟩
      exact h hc

theorem relativeSlashState_eq_none (hfile : base.scheme ≠ fileScheme) :
    relativeSlashState parseHost base rest = none ↔
      ∃ c text, rest = c :: text ∧ isSlash base.scheme c = true ∧
        NoHost parseHost base.scheme (skipSlashes base.scheme text) := by
  rw [relativeSlashState]
  cases rest with
  | nil => simp
  | cons c text =>
    cases hspecial : isSpecial base.scheme with
    | false =>
      have hskip : skipSlashes base.scheme text = text := by
        simp [skipSlashes, hasAuthority, hspecial]
      by_cases hc : c = '/'
      · simp [hc, isSlash, hskip, authorityState_eq_none hfile]
      · simp [hc, isSlash, hspecial]
    | true =>
      have hskip : skipSlashes base.scheme text =
          text.dropWhile fun c => c == '/' || c == '\\' := by
        simp [skipSlashes, hasAuthority, hspecial, hfile]
      cases hc : isSlash base.scheme c with
      | true => simp [hc, hskip, specialAuthorityState, authorityState_eq_none hfile]
      | false =>
        have hne : c ≠ '/' := fun h => by simp [h, isSlash] at hc
        simp [hc, hne]

theorem relativeState_eq_none (hfile : base.scheme ≠ fileScheme) :
    relativeState parseHost base rest = none ↔
      ∃ c d text, rest = c :: d :: text ∧ isSlash base.scheme c = true ∧
        isSlash base.scheme d = true ∧
        NoHost parseHost base.scheme (skipSlashes base.scheme text) := by
  unfold relativeState
  split
  · next h =>
    cases rest with
    | nil => cases h
    | cons c rest =>
      have hc : isSlash base.scheme c = true := h
      simp [relativeSlashState_eq_none hfile, hc]
  · next h =>
    refine iff_of_false ?_ ?_
    · split <;> simp
    · rintro ⟨c, d, text, rfl, hc, -⟩
      exact h hc

theorem exists_writtenAuthority {P : List Char → Prop}
    (h : (hasAuthority scheme && scheme != base.scheme) = false) :
    (∃ text, writtenAuthority base scheme rest = some text ∧ P text) ↔
      ∃ c d text, rest = c :: d :: text ∧ isSlash scheme c = true ∧ isSlash scheme d = true ∧
        P (skipSlashes scheme text) := by
  unfold writtenAuthority
  rw [h, if_neg Bool.false_ne_true]
  split
  · simp [and_assoc]
  · next hshort =>
    refine iff_of_false (by simp) ?_
    rintro ⟨c, d, text, rfl, -⟩
    exact hshort c d text rfl

theorem specialRelativeOrAuthorityState_eq (hspecial : isSpecial base.scheme = true) :
    specialRelativeOrAuthorityState parseHost base rest = relativeState parseHost base rest := by
  rw [specialRelativeOrAuthorityState]
  split
  · next h =>
    obtain ⟨text, rfl⟩ := List.isPrefixOf_iff_prefix.mp h
    simp [relativeState, relativeSlashState, isSlash, hspecial]
  · rfl

theorem pathOrAuthorityState_eq_none (hfile : scheme ≠ fileScheme)
    (hspecial : isSpecial scheme = false) :
    pathOrAuthorityState parseHost scheme rest = none ↔
      ∃ c text, rest = c :: text ∧ isSlash scheme c = true ∧
        NoHost parseHost scheme (skipSlashes scheme text) := by
  rw [pathOrAuthorityState]
  cases rest with
  | nil => simp
  | cons c text =>
    have hskip : skipSlashes scheme text = text := by simp [skipSlashes, hasAuthority, hspecial]
    by_cases hc : c = '/'
    · simp [hc, isSlash, hskip, authorityState_eq_none hfile]
    · simp [hc, isSlash, hspecial]

/-- A reference has no URL exactly when it writes an authority that names no host. -/
theorem schemeState_eq_none {input : List Char} {list : List (List Char)}
    (hbase : base.path = .segments list) :
    schemeState parseHost (some base) input = none ↔ Refused parseHost base input := by
  rw [schemeState, Refused, writtenScheme]
  cases splitScheme input with
  | none =>
    have hself : (hasAuthority base.scheme && base.scheme != base.scheme) = false := by simp
    simp only [Option.getD_none, noSchemeState, hbase]
    rw [exists_writtenAuthority hself]
    by_cases hfile : base.scheme = fileScheme
    · simp [hfile, fileState_eq_none, skipSlashes, show hasAuthority fileScheme = false from rfl]
    · simp [hfile, relativeState_eq_none]
  | some written =>
    obtain ⟨scheme, rest⟩ := written
    simp only [Option.getD_some]
    by_cases hfile : scheme = fileScheme
    · subst hfile
      rw [exists_writtenAuthority rfl]
      simp [fileState_eq_none, skipSlashes, show hasAuthority fileScheme = false from rfl]
    rw [if_neg hfile]
    cases hspecial : isSpecial scheme with
    | false =>
      rw [exists_writtenAuthority (by simp [hasAuthority, hspecial])]
      cases rest with
      | nil => simp
      | cons c rest =>
        by_cases hc : c = '/'
        · simp [hc, isSlash, pathOrAuthorityState_eq_none hfile hspecial, hspecial]
        · simp [hc, isSlash, hspecial]
    | true =>
      by_cases hsame : base.scheme = scheme
      · subst hsame
        rw [exists_writtenAuthority (by simp)]
        simp [Option.filter, specialRelativeOrAuthorityState_eq hspecial,
          relativeState_eq_none hfile]
      · have hauthority : hasAuthority scheme = true := by simp [hasAuthority, hspecial, hfile]
        have hother : scheme ≠ base.scheme := Ne.symm hsame
        simp [writtenAuthority, Option.filter, hsame, hother, specialAuthorityState,
          authorityState_eq_none hfile, skipSlashes, hauthority]

/-! ## The scheme of the result -/

variable {url : UrlRecord}

theorem authorityState_eq_some :
    authorityState parseHost scheme rest = some url ↔
      ∃ authority, readAuthority parseHost scheme (rest.takeWhile (!isDelimiter scheme ·)) =
        some authority ∧
        url = (authority.toUrl scheme).withPath
          (pathStartState scheme (rest.dropWhile (!isDelimiter scheme ·))) := by
  rw [authorityState, Option.bind_eq_bind, Option.bind_eq_some_iff]
  simp [eq_comm]

theorem authorityState_scheme (h : authorityState parseHost scheme rest = some url) :
    url.scheme = scheme := by
  obtain ⟨authority, -, rfl⟩ := authorityState_eq_some.mp h
  rfl

theorem fileHostState_scheme (h : fileHostState parseHost rest = some url) :
    url.scheme = fileScheme := by
  rw [fileHostState] at h
  split at h
  · cases h
    rfl
  · obtain ⟨host, -, rfl⟩ := Option.map_eq_some_iff.mp h
    rfl

theorem fileSlashState_scheme {from? : Option UrlRecord}
    (h : fileSlashState parseHost from? rest = some url) : url.scheme = fileScheme := by
  rw [fileSlashState] at h
  split at h
  · exact fileHostState_scheme h
  · split at h <;> cases h <;> rfl

theorem fileState_scheme {from? : Option UrlRecord}
    (h : fileState parseHost from? rest = some url) : url.scheme = fileScheme := by
  rw [fileState] at h
  split at h
  · exact fileSlashState_scheme h
  · split at h
    · dsimp only at h
      split at h <;> cases h <;> rfl
    · cases h
      rfl

theorem pathOrAuthorityState_scheme (h : pathOrAuthorityState parseHost scheme rest = some url) :
    url.scheme = scheme := by
  rw [pathOrAuthorityState] at h
  split at h
  · exact authorityState_scheme h
  · cases h
    rfl

/-- A scheme that is written, and is not the one of the base, is the one of the URL. -/
theorem schemeState_scheme {input : List Char} (hother : (writtenScheme base input).1 ≠ base.scheme)
    (h : schemeState parseHost (some base) input = some url) :
    url.scheme = (writtenScheme base input).1 := by
  rw [schemeState] at h
  rw [writtenScheme] at hother ⊢
  cases hwritten : splitScheme input with
  | none =>
    rw [hwritten] at hother
    exact absurd rfl hother
  | some written =>
    obtain ⟨scheme, rest⟩ := written
    rw [hwritten] at h hother
    dsimp only [Option.getD_some] at h hother ⊢
    split at h
    · next hfile => rw [fileState_scheme h, hfile]
    split at h
    · have hbase : (some base).filter (·.scheme == scheme) = none := by
        simp [Option.filter, Ne.symm hother]
      rw [hbase] at h
      exact authorityState_scheme h
    split at h
    · exact pathOrAuthorityState_scheme h
    · cases h
      rfl

/-! ## Where a path leads -/

/-- The path that segments lead to from a directory: a double dot goes back, a single dot stays,
and a path that ends with one of these ends with a slash. -/
def lead (dir : List (List Char)) : List (List Char) → List (List Char)
  | [] => dir
  | [last] =>
      if isDoubleDot last then dir.dropLast ++ [[]]
      else if isSingleDot last then dir ++ [[]]
      else dir ++ [last]
  | segment :: next :: segments =>
      if isDoubleDot segment then lead dir.dropLast (next :: segments)
      else if isSingleDot segment then lead dir (next :: segments)
      else lead (dir ++ [segment]) (next :: segments)

/-- The end of a path. -/
def isPathEnd (c : Char) : Bool := c == '?' || c == '#'

/-- The part of the text before a query or a fragment, split at its slashes. -/
def segments (scheme text : List Char) : List (List Char) :=
  ((text.takeWhile (!isPathEnd ·)).splitOnP (isSlash scheme)).map
    (·.flatMap (percentEncode isPathPercent))

theorem segments_ne_nil (scheme text : List Char) : segments scheme text ≠ [] := by
  simp [segments]

theorem segments_slash {c : Char} (h : isSlash scheme c = true) (text : List Char) :
    segments scheme (c :: text) = [] :: segments scheme text := by
  have hpath : isPathEnd c = false := by
    rw [isPathEnd, Bool.or_eq_false_iff, beq_eq_false_iff_ne, beq_eq_false_iff_ne]
    constructor <;> rintro rfl <;> simp [isSlash] at h
  rw [segments, List.takeWhile_cons_of_pos (by simp [hpath]),
    List.splitOnP_cons_eq_if_modifyHead, if_pos h]
  rfl

theorem segments_end {c : Char} (h : isPathEnd c = true) (text : List Char) :
    segments scheme (c :: text) = [[]] := by
  rw [segments, List.takeWhile_cons_of_neg (by simp [h])]
  rfl

theorem segments_char {c : Char} (hslash : isSlash scheme c = false) (hpath : isPathEnd c = false)
    (text : List Char) : segments scheme (c :: text) =
      (segments scheme text).modifyHead (percentEncode isPathPercent c ++ ·) := by
  rw [segments, segments, List.takeWhile_cons_of_pos (by simp [hpath]),
    List.splitOnP_cons_eq_if_modifyHead, if_neg (by simp [hslash])]
  obtain ⟨next, rest, hrest⟩ := List.exists_cons_of_ne_nil
    (List.splitOnP_ne_nil (isSlash scheme) (text.takeWhile (!isPathEnd ·)))
  simp [hrest]

/-- The path state collects the path that the segments lead to. -/
theorem pathState_lead (hfile : scheme ≠ fileScheme) (dir : List (List Char))
    (buffer text : List Char) :
    (pathState scheme dir buffer text).1 =
      lead dir ((segments scheme text).modifyHead (buffer ++ ·)) := by
  induction text generalizing dir buffer with
  | nil => simp [pathState, segments, endSegment, lead, shorten, hfile]
  | cons c text ih =>
    obtain ⟨next, rest, hrest⟩ := List.exists_cons_of_ne_nil (segments_ne_nil scheme text)
    rw [pathState]
    split
    · next hslash =>
      rw [ih, segments_slash hslash, hrest]
      simp only [List.modifyHead_cons, List.nil_append, List.append_nil, endSegment, lead, shorten,
        hfile, false_and, if_false, if_true]
      split
      · rfl
      · split <;> rfl
    split
    · next hpath =>
      rw [segments_end hpath]
      simp [endSegment, lead, shorten, hfile]
    · next hslash hpath =>
      rw [ih, segments_char (by simpa using hslash) (by simpa [isPathEnd] using hpath), hrest]
      simp

theorem pathState_segments (hfile : scheme ≠ fileScheme) (dir : List (List Char))
    (text : List Char) : (pathState scheme dir [] text).1 = lead dir (segments scheme text) := by
  obtain ⟨next, rest, hrest⟩ := List.exists_cons_of_ne_nil (segments_ne_nil scheme text)
  rw [pathState_lead hfile, hrest]
  rfl

/-- Behind the slash that a path may begin with. -/
def afterSlash (scheme text : List Char) : List Char :=
  if text.head?.any (isSlash scheme) then text.tail else text

theorem hasAuthority_iff : hasAuthority scheme = true ↔
    isSpecial scheme = true ∧ scheme ≠ fileScheme := by
  simp [hasAuthority]

theorem pathStartState_segments (h : hasAuthority scheme = true) (text : List Char) :
    (pathStartState scheme text).1 = lead [] (segments scheme (afterSlash scheme text)) := by
  obtain ⟨hspecial, hfile⟩ := hasAuthority_iff.mp h
  rw [← pathState_segments hfile]
  cases text with
  | nil => simp [pathStartState, hspecial, afterSlash]
  | cons c text =>
    cases hc : isSlash scheme c <;> simp [pathStartState, hspecial, afterSlash, hc]

/-- A reference in the scheme of the base is a relative one. -/
theorem schemeState_same {input : List Char} {list : List (List Char)}
    (hauthority : hasAuthority base.scheme = true) (hbase : base.path = .segments list)
    (hsame : (writtenScheme base input).1 = base.scheme) :
    schemeState parseHost (some base) input =
      relativeState parseHost base (writtenScheme base input).2 := by
  obtain ⟨hspecial, hfile⟩ := hasAuthority_iff.mp hauthority
  rw [schemeState]
  rw [writtenScheme] at hsame ⊢
  cases hwritten : splitScheme input with
  | none => simp [noSchemeState, hbase, hfile]
  | some written =>
    obtain ⟨scheme, rest⟩ := written
    rw [hwritten] at hsame
    obtain rfl : scheme = base.scheme := hsame
    simp [hfile, hspecial, Option.filter, specialRelativeOrAuthorityState_eq]

end Rsc.Library.UrlParser
