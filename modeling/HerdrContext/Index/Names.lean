import HerdrContext.Platform

/-! Names in a project's cache directory: published generations, temporaries
and the pointer. -/
namespace HerdrContext.Index

open Library

/-- A directory entry's name, one character for each byte. -/
abbrev EntryName := List Char

def slice (start length : Nat) (name : EntryName) : EntryName := (name.drop start).take length

theorem slice_append {before part after : EntryName} {start length : Nat}
    (hstart : before.length = start) (hlength : part.length = length) :
    slice start length (before ++ (part ++ after)) = part := by
  subst hstart hlength
  simp [slice]

def pointerName : EntryName := ['c', 'u', 'r', 'r', 'e', 'n', 't']
def cachePrefix : EntryName := ['c', 'a', 'c', 'h', 'e', '-']
def temporaryPrefix : EntryName := ['.', 'c', 'a', 'c', 'h', 'e', '-']
def pointerPrefix : EntryName := ['.', 'c', 'u', 'r', 'r', 'e', 'n', 't', '-']
def jsonSuffix : EntryName := ['.', 'j', 's', 'o', 'n']
def tmpSuffix : EntryName := ['.', 't', 'm', 'p']

/-- `{process:08x}-{nonce:016x}`. -/
def nonceText (process : UInt32) (nonce : UInt64) : List Char :=
  Text.fixedDigits 16 8 process.toNat ++ '-' :: hex16 nonce

/-- `cache-{generation:020}-{process:08x}-{nonce:016x}.json`. -/
def publishedName (generation : UInt64) (process : UInt32) (nonce : UInt64) : EntryName :=
  cachePrefix ++ (Text.fixedDigits 10 20 generation.toNat ++
    '-' :: (nonceText process nonce ++ jsonSuffix))

/-- `.cache-{generation:020}-{process:08x}-{nonce:016x}.tmp`. -/
def temporaryName (generation : UInt64) (process : UInt32) (nonce : UInt64) : EntryName :=
  temporaryPrefix ++ (Text.fixedDigits 10 20 generation.toNat ++
    '-' :: (nonceText process nonce ++ tmpSuffix))

/-- `.current-{process:08x}-{nonce:016x}.tmp`. -/
def pointerTemporaryName (process : UInt32) (nonce : UInt64) : EntryName :=
  pointerPrefix ++ (nonceText process nonce ++ tmpSuffix)

def allHex (text : List Char) : Bool := text.all Text.isHexDigit

def cacheGeneration (name : EntryName) : Option UInt64 :=
  if name.length = 57 ∧ slice 0 6 name = cachePrefix ∧ slice 52 5 name = jsonSuffix ∧
      slice 26 1 name = ['-'] ∧ slice 35 1 name = ['-'] ∧ allHex (slice 27 8 name) ∧
      allHex (slice 36 16 name) then
    (Text.parseUnsigned (2 ^ 64) (slice 6 20 name)).map UInt64.ofNat
  else none

def isTemporaryCacheFile (name : EntryName) : Bool :=
  name.length = 57 && slice 0 7 name = temporaryPrefix && slice 53 4 name = tmpSuffix &&
    slice 27 1 name = ['-'] && slice 36 1 name = ['-'] && (slice 7 20 name).all Char.isDigit &&
    allHex (slice 28 8 name) && allHex (slice 37 16 name)

def isTemporaryPointerFile (name : EntryName) : Bool :=
  name.length = 38 && slice 0 9 name = pointerPrefix && slice 34 4 name = tmpSuffix &&
    slice 17 1 name = ['-'] && allHex (slice 9 8 name) && allHex (slice 18 16 name)

theorem allHex_fixedDigits (width n : Nat) : allHex (Text.fixedDigits 16 width n) = true :=
  List.all_eq_true.mpr fun c hc =>
    (Text.isHexDigit_fixedDigits (by decide) (by decide) width n c hc).1

/-- A published name tells its generation. -/
theorem cacheGeneration_publishedName (generation : UInt64) (process : UInt32) (nonce : UInt64) :
    cacheGeneration (publishedName generation process nonce) = some generation := by
  generalize hdigits : Text.fixedDigits 10 20 generation.toNat = digits
  generalize hprocess : Text.fixedDigits 16 8 process.toNat = processText
  generalize hnonce : hex16 nonce = nonceDigits
  have hdlen : digits.length = 20 := by simp [← hdigits]
  have hplen : processText.length = 8 := by simp [← hprocess]
  have hnlen : nonceDigits.length = 16 := by simp [← hnonce]
  have hname : publishedName generation process nonce =
      cachePrefix ++ (digits ++ (['-'] ++ (processText ++ (['-'] ++
        (nonceDigits ++ (jsonSuffix ++ [])))))) := by
    simp [publishedName, nonceText, hdigits, hprocess, hnonce]
  have hslice : ∀ (before part after : EntryName) (start length : Nat),
      publishedName generation process nonce = before ++ (part ++ after) →
      before.length = start → part.length = length →
      slice start length (publishedName generation process nonce) = part := by
    intro before part after start length heq hstart hlength
    rw [heq]
    exact slice_append hstart hlength
  have h0 := hslice [] cachePrefix _ 0 6 (by rw [hname, List.nil_append]) rfl rfl
  have h6 := hslice cachePrefix digits _ 6 20 hname rfl hdlen
  have h26 := hslice (cachePrefix ++ digits) ['-'] _ 26 1
    (by rw [hname, List.append_assoc]) (by simp [cachePrefix, hdlen]) rfl
  have h27 := hslice (cachePrefix ++ digits ++ ['-']) processText _ 27 8
    (by rw [hname]; simp only [List.append_assoc]; rfl) (by simp [cachePrefix, hdlen]) hplen
  have h35 := hslice (cachePrefix ++ digits ++ ['-'] ++ processText) ['-'] _ 35 1
    (by rw [hname]; simp only [List.append_assoc]; rfl) (by simp [cachePrefix, hdlen, hplen]) rfl
  have h36 := hslice (cachePrefix ++ digits ++ ['-'] ++ processText ++ ['-']) nonceDigits _ 36 16
    (by rw [hname]; simp only [List.append_assoc]; rfl) (by simp [cachePrefix, hdlen, hplen]) hnlen
  have h52 := hslice (cachePrefix ++ digits ++ ['-'] ++ processText ++ ['-'] ++ nonceDigits)
    jsonSuffix _ 52 5 (by rw [hname]; simp only [List.append_assoc]; rfl)
    (by simp [cachePrefix, hdlen, hplen, hnlen]) rfl
  have hlength : (publishedName generation process nonce).length = 57 := by
    rw [hname]
    simp [cachePrefix, jsonSuffix, hdlen, hplen, hnlen]
  have hparse : Text.parseUnsigned (2 ^ 64) digits = some generation.toNat := by
    rw [← hdigits]
    exact Text.parseUnsigned_fixedDigits (by decide)
      (Nat.lt_trans generation.toNat_lt (by decide)) generation.toNat_lt
  have hphex : allHex processText = true := hprocess ▸ allHex_fixedDigits 8 _
  have hnhex : allHex nonceDigits = true := hnonce ▸ allHex_fixedDigits 16 _
  unfold cacheGeneration
  rw [h0, h6, h26, h27, h35, h36, h52, hlength, hparse, hphex, hnhex]
  simp

/-! ### Names tell each other apart -/

theorem cacheGeneration_ne_cache {name : EntryName} (h : slice 0 6 name ≠ cachePrefix) :
    cacheGeneration name = none :=
  if_neg fun hname => h hname.2.1

theorem slice_zero_ne {name : EntryName} (h : name.head? = some '.') :
    slice 0 6 name ≠ cachePrefix := by
  cases name with
  | nil => simp at h
  | cons c rest =>
    cases Option.some.inj h
    simp [slice, cachePrefix]

@[simp] theorem cacheGeneration_temporaryName (generation : UInt64) (process : UInt32)
    (nonce : UInt64) : cacheGeneration (temporaryName generation process nonce) = none :=
  cacheGeneration_ne_cache (slice_zero_ne rfl)

@[simp] theorem cacheGeneration_pointerTemporaryName (process : UInt32) (nonce : UInt64) :
    cacheGeneration (pointerTemporaryName process nonce) = none :=
  cacheGeneration_ne_cache (slice_zero_ne rfl)

@[simp] theorem cacheGeneration_pointerName : cacheGeneration pointerName = none := by decide

/-- What opening cleans up is neither the pointer nor a cache file. -/
theorem temporary_ne {name : EntryName}
    (h : isTemporaryCacheFile name ∨ isTemporaryPointerFile name) :
    name ≠ pointerName ∧ cacheGeneration name = none := by
  constructor
  · rintro rfl
    revert h
    decide
  · apply cacheGeneration_ne_cache
    apply slice_zero_ne
    rcases h with h | h
    · simp only [isTemporaryCacheFile, Bool.and_eq_true, decide_eq_true_eq] at h
      have hslice := h.1.1.1.1.1.1.2
      cases name with
      | nil => simp [slice, temporaryPrefix] at hslice
      | cons c rest =>
        simp only [slice, temporaryPrefix, List.drop_zero, List.take_succ_cons,
          List.cons.injEq] at hslice
        rw [hslice.1, List.head?_cons]
    · simp only [isTemporaryPointerFile, Bool.and_eq_true, decide_eq_true_eq] at h
      have hslice := h.1.1.1.1.2
      cases name with
      | nil => simp [slice, pointerPrefix] at hslice
      | cons c rest =>
        simp only [slice, pointerPrefix, List.drop_zero, List.take_succ_cons,
          List.cons.injEq] at hslice
        rw [hslice.1, List.head?_cons]

/-- The pointer is no cache file and no temporary. -/
theorem pointerName_ne (generation : UInt64) (process : UInt32) (nonce : UInt64) :
    pointerName ≠ publishedName generation process nonce ∧
      pointerName ≠ temporaryName generation process nonce ∧
      pointerName ≠ pointerTemporaryName process nonce := by
  refine ⟨fun h => ?_, fun h => ?_, fun h => ?_⟩
  · have := cacheGeneration_publishedName generation process nonce
    rw [← h, cacheGeneration_pointerName] at this
    contradiction
  · have := congrArg List.head? h
    simp [pointerName, temporaryName, temporaryPrefix] at this
  · have := congrArg List.head? h
    simp [pointerName, pointerTemporaryName, pointerPrefix] at this

theorem nonceText_injective {process process' : UInt32} {nonce nonce' : UInt64}
    (h : nonceText process nonce = nonceText process' nonce') :
    process = process' ∧ nonce = nonce' := by
  have processBound : ∀ value : UInt32, value.toNat < 16 ^ 8 := fun value =>
    Nat.lt_of_lt_of_eq value.toNat_lt (by norm_num)
  have nonceBound : ∀ value : UInt64, value.toNat < 16 ^ 16 := fun value =>
    Nat.lt_of_lt_of_eq value.toNat_lt (by norm_num)
  obtain ⟨hprocess, hrest⟩ := List.append_inj h (by simp)
  obtain ⟨-, hnonce⟩ := List.cons.inj hrest
  constructor
  · apply UInt32.toNat_inj.mp
    exact Text.fixedDigits_injective (by decide) (by decide) (processBound process)
      (processBound process') hprocess
  · apply UInt64.toNat_inj.mp
    exact Text.fixedDigits_injective (by decide) (by decide) (nonceBound nonce)
      (nonceBound nonce') hnonce

theorem publishedName_injective {generation generation' : UInt64} {process process' : UInt32}
    {nonce nonce' : UInt64}
    (h : publishedName generation process nonce = publishedName generation' process' nonce') :
    process = process' ∧ nonce = nonce' := by
  obtain ⟨-, hrest⟩ := List.append_inj (List.append_cancel_left h) (by simp)
  exact nonceText_injective (List.append_cancel_right (List.cons.inj hrest).2)

theorem temporaryName_injective {generation generation' : UInt64} {process process' : UInt32}
    {nonce nonce' : UInt64}
    (h : temporaryName generation process nonce = temporaryName generation' process' nonce') :
    process = process' ∧ nonce = nonce' := by
  obtain ⟨-, hrest⟩ := List.append_inj (List.append_cancel_left h) (by simp)
  exact nonceText_injective (List.append_cancel_right (List.cons.inj hrest).2)

theorem pointerTemporaryName_injective {process process' : UInt32} {nonce nonce' : UInt64}
    (h : pointerTemporaryName process nonce = pointerTemporaryName process' nonce') :
    process = process' ∧ nonce = nonce' :=
  nonceText_injective (List.append_cancel_right (List.append_cancel_left h))

theorem publishedName_ne {generation : UInt64} {process : UInt32} {nonce : UInt64}
    {name : EntryName} (h : cacheGeneration name = none) :
    publishedName generation process nonce ≠ name := by
  rintro rfl
  rw [cacheGeneration_publishedName] at h
  contradiction

theorem pointerTemporaryName_ne_temporaryName (generation : UInt64) (process process' : UInt32)
    (nonce nonce' : UInt64) :
    pointerTemporaryName process nonce ≠ temporaryName generation process' nonce' := by
  intro h
  simp [pointerTemporaryName, temporaryName, pointerPrefix, temporaryPrefix] at h

/-- Printable ASCII without a slash, so that a published name is one path component. -/
def plainChar (c : Char) : Bool := c.toNat < 128 && c ≠ '/'

theorem plainChar_hexDigit {c : Char} (h : Text.isHexDigit c = true) : plainChar c = true := by
  simp only [Text.isHexDigit, Char.isDigit, Bool.or_eq_true, Bool.and_eq_true, decide_eq_true_eq,
    UInt32.le_iff_toNat_le, Char.le_def] at h
  simp only [plainChar, Bool.and_eq_true, decide_eq_true_eq, ne_eq]
  have hval : c.toNat = c.val.toNat := rfl
  simp at h
  refine ⟨by omega, ?_⟩
  rintro rfl
  revert h
  decide

theorem isHexDigit_of_isDigit {c : Char} (h : c.isDigit = true) : Text.isHexDigit c = true := by
  simp [Text.isHexDigit, h]

theorem plainChar_publishedName (generation : UInt64) (process : UInt32) (nonce : UInt64) :
    ∀ c ∈ publishedName generation process nonce, plainChar c = true := by
  have hcache : ∀ c ∈ cachePrefix, plainChar c = true := by simp [cachePrefix, plainChar]
  have hjson : ∀ c ∈ jsonSuffix, plainChar c = true := by simp [jsonSuffix, plainChar]
  have hdash : plainChar '-' = true := by decide
  intro c hc
  simp only [publishedName, nonceText, List.mem_append, List.mem_cons] at hc
  rcases hc with hc | hc | rfl | (hc | rfl | hc) | hc
  · exact hcache c hc
  · exact plainChar_hexDigit (isHexDigit_of_isDigit (Text.isDigit_fixedDigits _ _ c hc))
  · exact hdash
  · exact plainChar_hexDigit
      (Text.isHexDigit_fixedDigits (by decide) (by decide) _ _ c hc).1
  · exact hdash
  · exact plainChar_hexDigit (isHexDigit_hex16 nonce c hc)
  · exact hjson c hc

theorem length_publishedName (generation : UInt64) (process : UInt32) (nonce : UInt64) :
    (publishedName generation process nonce).length = 57 := by
  simp [publishedName, nonceText, cachePrefix, jsonSuffix]

end HerdrContext.Index
