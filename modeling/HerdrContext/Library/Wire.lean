import HerdrContext.Library.Text

/-! Self-delimiting text formats. A format prints a value and reads it back
from the front of a longer text; formats are composed from literals, numbers,
quoted strings, nullable values, sequences and bracketed lists. -/
namespace HerdrContext.Library

/-- An encoder that may refuse a value, with a decoder that inverts it. Nothing
is assumed about texts the encoder does not produce. -/
structure Codec (α Text : Type) where
  encode : α → Option Text
  decode : Text → Option α
  decode_encode : ∀ {value : α} {text : Text}, encode value = some text → decode text = some value

/-- A text that does not continue a number. -/
def Delimited (rest : List Char) : Prop := ∀ c ∈ rest.head?, c.isDigit = false

theorem delimited_nil : Delimited [] := by simp [Delimited]

theorem delimited_append {sep : List Char} (h : ∃ c tail, sep = c :: tail ∧ c.isDigit = false)
    (rest : List Char) : Delimited (sep ++ rest) := by
  obtain ⟨c, tail, rfl, hc⟩ := h
  simpa [Delimited] using hc

structure Wire (α : Type) where
  print : α → Option (List Char)
  parse : List Char → Option (α × List Char)
  parse_print : ∀ {value : α} {text : List Char} (rest : List Char),
    print value = some text → Delimited rest → parse (text ++ rest) = some (value, rest)

namespace Wire

variable {α β : Type}

/-- Consume a fixed text. -/
def consume : List Char → List Char → Option (List Char)
  | [], text => some text
  | c :: literal, d :: text => if c = d then consume literal text else none
  | _ :: _, [] => none

@[simp] theorem consume_append (literal rest : List Char) :
    consume literal (literal ++ rest) = some rest := by
  induction literal with
  | nil => rfl
  | cons c literal ih => simp [consume, ih]

/-- Nonempty printouts whose first character is not `c`. -/
def AvoidsFirst (w : Wire α) (c : Char) : Prop :=
  ∀ value text, w.print value = some text → ∃ d tail, text = d :: tail ∧ d ≠ c

/-! ## Composition -/

/-- A value between two literals. -/
def wrap (before after : List Char) (hafter : ∃ c tail, after = c :: tail ∧ c.isDigit = false)
    (w : Wire α) : Wire α where
  print value := (w.print value).map fun text => before ++ text ++ after
  parse text := do
    let text ← consume before text
    let (value, text) ← w.parse text
    let text ← consume after text
    return (value, text)
  parse_print := by
    intro value text rest hprint hrest
    obtain ⟨inner, hinner, rfl⟩ := Option.map_eq_some_iff.mp hprint
    have hparse := w.parse_print (after ++ rest) hinner (delimited_append hafter rest)
    simp [List.append_assoc, hparse]

/-- Two values with a literal between them. -/
def seq (sep : List Char) (hsep : ∃ c tail, sep = c :: tail ∧ c.isDigit = false)
    (left : Wire α) (right : Wire β) : Wire (α × β) where
  print value := do
    let first ← left.print value.1
    let second ← right.print value.2
    return first ++ sep ++ second
  parse text := do
    let (first, text) ← left.parse text
    let text ← consume sep text
    let (second, text) ← right.parse text
    return ((first, second), text)
  parse_print := by
    intro value text rest hprint hrest
    simp only [Option.bind_eq_bind, Option.bind_eq_some_iff, Option.pure_def,
      Option.some.injEq] at hprint
    obtain ⟨first, hfirst, second, hsecond, rfl⟩ := hprint
    have hleft := left.parse_print (sep ++ (second ++ rest)) hfirst
      (delimited_append hsep _)
    have hright := right.parse_print rest hsecond hrest
    simp [List.append_assoc, hleft, hright]

/-- The same text for a type that embeds into the format's own. -/
def embed (toValue : β → α) (ofValue : α → Option β) (h : ∀ b, ofValue (toValue b) = some b)
    (w : Wire α) : Wire β where
  print value := w.print (toValue value)
  parse text := do
    let (value, text) ← w.parse text
    let value ← ofValue value
    return (value, text)
  parse_print := by
    intro value text rest hprint hrest
    simp [w.parse_print rest hprint hrest, h]

def nullText : List Char := ['n', 'u', 'l', 'l']

/-- A missing value is printed as `null`. -/
def nullable (w : Wire α) (hw : w.AvoidsFirst 'n') : Wire (Option α) where
  print
    | none => some nullText
    | some value => w.print value
  parse text :=
    if text.head? = some 'n' then (consume nullText text).map fun rest => (none, rest)
    else (w.parse text).map fun result => (some result.1, result.2)
  parse_print := by
    intro value text rest hprint hrest
    cases value with
    | none =>
      cases Option.some.inj hprint
      have hhead : (nullText ++ rest).head? = some 'n' := rfl
      simp only [hhead, if_true, consume_append, Option.map_some]
    | some value =>
      obtain ⟨c, tail, htext, hc⟩ := hw value text hprint
      have hhead : (text ++ rest).head? ≠ some 'n' := by simp [htext, hc]
      rw [if_neg hhead, w.parse_print rest hprint hrest]
      rfl

theorem wrap_avoidsFirst {before after : List Char} {hafter} {w : Wire α} {b c : Char}
    (hb : before.head? = some b) (hne : b ≠ c) : (wrap before after hafter w).AvoidsFirst c := by
  intro value text hprint
  obtain ⟨inner, hinner, rfl⟩ := Option.map_eq_some_iff.mp hprint
  cases before with
  | nil => simp at hb
  | cons d before =>
    cases Option.some.inj hb
    exact ⟨b, _, rfl, hne⟩

theorem embed_avoidsFirst {toValue : β → α} {ofValue : α → Option β} {h} {w : Wire α} {c : Char}
    (hw : w.AvoidsFirst c) : (embed toValue ofValue h w).AvoidsFirst c :=
  fun value text hprint => hw (toValue value) text hprint

theorem seq_avoidsFirst {sep : List Char} {hsep} {left : Wire α} {right : Wire β} {c : Char}
    (hleft : left.AvoidsFirst c) : (seq sep hsep left right).AvoidsFirst c := by
  intro value text hprint
  simp only [seq, Option.bind_eq_bind, Option.bind_eq_some_iff, Option.pure_def,
    Option.some.injEq] at hprint
  obtain ⟨first, hfirst, second, -, rfl⟩ := hprint
  obtain ⟨d, tail, rfl, hd⟩ := hleft value.1 first hfirst
  exact ⟨d, _, rfl, hd⟩

/-! ## Literals and numbers -/

def bool : Wire Bool where
  print value := some (if value then ['t', 'r', 'u', 'e'] else ['f', 'a', 'l', 's', 'e'])
  parse text :=
    if text.head? = some 't' then
      (consume ['t', 'r', 'u', 'e'] text).map fun rest => (true, rest)
    else (consume ['f', 'a', 'l', 's', 'e'] text).map fun rest => (false, rest)
  parse_print := by
    intro value text rest hprint hrest
    cases value <;> cases Option.some.inj hprint <;> simp [consume]

/-- Naturals in decimal. -/
def nat : Wire Nat where
  print value := some (Nat.toDigits 10 value)
  parse text :=
    let digits := text.takeWhile Char.isDigit
    if digits = [] then none
    else some (Nat.ofDigitChars 10 digits 0, text.dropWhile Char.isDigit)
  parse_print := by
    intro value text rest hprint hrest
    cases Option.some.inj hprint
    have hdigits := Text.isDigit_toDigits value
    have htake : (Nat.toDigits 10 value ++ rest).takeWhile Char.isDigit = Nat.toDigits 10 value := by
      rw [List.takeWhile_append_of_pos hdigits]
      cases rest with
      | nil => simp
      | cons c rest => simp [hrest c rfl]
    have hdrop : (Nat.toDigits 10 value ++ rest).dropWhile Char.isDigit = rest := by
      rw [List.dropWhile_append_of_pos hdigits]
      cases rest with
      | nil => simp
      | cons c rest => simp [hrest c rfl]
    simp only [htake, hdrop, if_neg Nat.toDigits_ne_nil, Nat.ofDigitChars_ten_toDigits]

theorem nat_avoidsFirst {c : Char} (hc : c.isDigit = false) : nat.AvoidsFirst c := by
  intro value text hprint
  cases Option.some.inj hprint
  cases hdigits : Nat.toDigits 10 value with
  | nil => exact absurd hdigits Nat.toDigits_ne_nil
  | cons d tail =>
    refine ⟨d, tail, rfl, ?_⟩
    rintro rfl
    have := Text.isDigit_toDigits value d (by simp [hdigits])
    simp [hc] at this

/-! ## Quoted strings -/

def hexDigit (n : Nat) : Char := Nat.digitChar n

def hexValue (c : Char) : Nat :=
  if c.isDigit then c.toNat - '0'.toNat else c.toNat - 'a'.toNat + 10

theorem hexValue_hexDigit {n : Nat} (h : n < 16) : hexValue (hexDigit n) = n := by
  interval_cases n <;> decide

def escape (c : Char) : List Char :=
  if c = '"' then ['\\', '"']
  else if c = '\\' then ['\\', '\\']
  else if c = '\n' then ['\\', 'n']
  else if c = '\r' then ['\\', 'r']
  else if c = '\t' then ['\\', 't']
  else if c = Char.ofNat 8 then ['\\', 'b']
  else if c = Char.ofNat 12 then ['\\', 'f']
  else if c.toNat < 32 then
    ['\\', 'u', '0', '0', hexDigit (c.toNat / 16), hexDigit (c.toNat % 16)]
  else [c]

/-- The character a one-letter escape stands for. -/
def unescape (c : Char) : Char :=
  if c = 'n' then '\n' else if c = 'r' then '\r' else if c = 't' then '\t'
  else if c = 'b' then Char.ofNat 8 else if c = 'f' then Char.ofNat 12 else c

/-- The characters before the closing quote. -/
def unquote : List Char → Option (List Char × List Char)
  | [] => none
  | '"' :: rest => some ([], rest)
  | '\\' :: 'u' :: '0' :: '0' :: high :: low :: rest =>
    (unquote rest).map fun result =>
      (Char.ofNat (hexValue high * 16 + hexValue low) :: result.1, result.2)
  | '\\' :: c :: rest => (unquote rest).map fun result => (unescape c :: result.1, result.2)
  | c :: rest => (unquote rest).map fun result => (c :: result.1, result.2)

theorem unquote_escape (c : Char) (rest : List Char) :
    unquote (escape c ++ rest) = (unquote rest).map fun result => (c :: result.1, result.2) := by
  by_cases hcontrol : c.toNat < 32
  · have hchar : Char.ofNat c.toNat = c := Char.ofNat_toNat c
    generalize hn : c.toNat = n at hcontrol hchar
    subst hchar
    interval_cases n <;> rfl
  · unfold escape
    split
    next h => subst h; rfl
    next hquote =>
      split
      next h => subst h; rfl
      next hslash =>
        have hne : ∀ d : Char, d.toNat < 32 → c ≠ d := by
          rintro d hd rfl
          exact hcontrol hd
        rw [if_neg (hne '\n' (by decide)), if_neg (hne '\r' (by decide)),
          if_neg (hne '\t' (by decide)), if_neg (hne (Char.ofNat 8) (by decide)),
          if_neg (hne (Char.ofNat 12) (by decide)), List.singleton_append]
        rw [unquote.eq_def]
        split <;> simp_all

/-- Strings in double quotes. -/
def string : Wire (List Char) where
  print value := some ('"' :: value.flatMap escape ++ ['"'])
  parse text := do
    let text ← consume ['"'] text
    unquote text
  parse_print := by
    intro value text rest hprint hrest
    cases Option.some.inj hprint
    have hbody : unquote (value.flatMap escape ++ '"' :: rest) = some (value, rest) := by
      induction value with
      | nil => rfl
      | cons c value ih =>
        rw [List.flatMap_cons, List.append_assoc, unquote_escape, ih rfl]
        rfl
    simp [consume, List.append_assoc, hbody]

theorem string_avoidsFirst {c : Char} (hc : c ≠ '"') : string.AvoidsFirst c := by
  intro value text hprint
  cases Option.some.inj hprint
  exact ⟨'"', _, rfl, Ne.symm hc⟩

/-! ## Bracketed lists -/

/-- The list behind its first element: separators, elements and the bracket. -/
def printMore (w : Wire α) (close : Char) : List α → Option (List Char)
  | [] => some [close]
  | value :: rest => do
    let text ← w.print value
    let more ← printMore w close rest
    return ',' :: text ++ more

def parseMore (w : Wire α) (close : Char) : Nat → List Char → Option (List α × List Char)
  | 0, _ => none
  | _ + 1, [] => none
  | fuel + 1, c :: text =>
    if c = close then some ([], text)
    else if c = ',' then do
      let (value, text) ← w.parse text
      let (more, text) ← parseMore w close fuel text
      return (value :: more, text)
    else none

theorem printMore_eq {w : Wire α} {close : Char} {values : List α} {text : List Char}
    (h : printMore w close values = some text) :
    values.length < text.length ∧ ∃ c tail, text = c :: tail ∧ (c = close ∨ c = ',') := by
  induction values generalizing text with
  | nil =>
    cases Option.some.inj h
    simp
  | cons value values ih =>
    simp only [printMore, Option.bind_eq_bind, Option.bind_eq_some_iff, Option.pure_def,
      Option.some.injEq] at h
    obtain ⟨first, -, more, hmore, rfl⟩ := h
    have := (ih hmore).1
    simp only [List.length_cons, List.cons_append, List.length_append, List.cons.injEq]
    exact ⟨by omega, ',', _, ⟨rfl, rfl⟩, Or.inr rfl⟩

theorem delimited_printMore {w : Wire α} {close : Char} {values : List α} {text : List Char}
    (hclose : close.isDigit = false) (h : printMore w close values = some text)
    (rest : List Char) : Delimited (text ++ rest) := by
  obtain ⟨c, tail, htext, hc⟩ := (printMore_eq h).2
  refine delimited_append ⟨c, tail, htext, ?_⟩ rest
  rcases hc with rfl | rfl
  · exact hclose
  · rfl

theorem parseMore_printMore {w : Wire α} {close : Char} (hclose : close.isDigit = false)
    (hcomma : close ≠ ',') {values : List α} {text : List Char} (rest : List Char) {fuel : Nat}
    (h : printMore w close values = some text) (hfuel : values.length < fuel) :
    parseMore w close fuel (text ++ rest) = some (values, rest) := by
  induction values generalizing text fuel with
  | nil =>
    cases Option.some.inj h
    cases fuel with
    | zero => simp at hfuel
    | succ fuel => simp [parseMore]
  | cons value values ih =>
    simp only [printMore, Option.bind_eq_bind, Option.bind_eq_some_iff, Option.pure_def,
      Option.some.injEq] at h
    obtain ⟨first, hfirst, more, hmore, rfl⟩ := h
    cases fuel with
    | zero => simp at hfuel
    | succ fuel =>
      have hparse := w.parse_print (more ++ rest) hfirst (delimited_printMore hclose hmore rest)
      have hrest := ih hmore (Nat.lt_of_succ_lt_succ hfuel)
      simp [parseMore, Ne.symm hcomma, List.append_assoc, hparse, hrest]

/-- Values between brackets, separated by commas. -/
def items (start close : Char) (hclose : close.isDigit = false) (hcomma : close ≠ ',')
    (w : Wire α) (hw : w.AvoidsFirst close) : Wire (List α) where
  print
    | [] => some [start, close]
    | value :: rest => do
      let text ← w.print value
      let more ← printMore w close rest
      return start :: text ++ more
  parse text := do
    let text ← consume [start] text
    if text.head? = some close then return ([], text.tail)
    let (value, text) ← w.parse text
    let (more, text) ← parseMore w close text.length text
    return (value :: more, text)
  parse_print := by
    intro values text rest hprint hrest
    cases values with
    | nil =>
      cases Option.some.inj hprint
      simp [consume]
    | cons value values =>
      simp only [Option.bind_eq_bind, Option.bind_eq_some_iff, Option.pure_def,
        Option.some.injEq] at hprint
      obtain ⟨first, hfirst, more, hmore, rfl⟩ := hprint
      obtain ⟨c, tail, rfl, hc⟩ := hw value first hfirst
      have hparse := w.parse_print (more ++ rest) hfirst (delimited_printMore hclose hmore rest)
      have hfuel : values.length < (more ++ rest).length := by
        have := (printMore_eq hmore).1
        rw [List.length_append]
        omega
      have hrest := parseMore_printMore hclose hcomma rest hmore hfuel
      rw [List.length_append] at hrest
      rw [List.cons_append] at hparse
      simp [consume, hc, List.append_assoc, hparse, hrest]

theorem items_avoidsFirst {start close c : Char} {hclose hcomma} {w : Wire α} {hw}
    (hc : start ≠ c) : (items start close hclose hcomma w hw).AvoidsFirst c := by
  intro values text hprint
  cases values with
  | nil =>
    cases Option.some.inj hprint
    exact ⟨start, _, rfl, hc⟩
  | cons value values =>
    simp only [items, Option.bind_eq_bind, Option.bind_eq_some_iff, Option.pure_def,
      Option.some.injEq] at hprint
    obtain ⟨first, -, more, -, rfl⟩ := hprint
    exact ⟨start, _, rfl, hc⟩

/-! ## Records -/

def recordStart (name : String) : List Char := '{' :: '"' :: name.toList ++ ['"', ':']

def recordNext (name : String) : List Char := ',' :: '"' :: name.toList ++ ['"', ':']

/-- A record in braces, named after its first field. -/
def record (first : String) (w : Wire α) : Wire α :=
  wrap (recordStart first) ['}'] ⟨_, _, rfl, rfl⟩ w

/-- One field and the fields behind it, the first of which is named here. -/
def next (name : String) (left : Wire α) (right : Wire β) : Wire (α × β) :=
  seq (recordNext name) ⟨_, _, rfl, rfl⟩ left right

theorem record_avoidsFirst {first : String} {w : Wire α} {c : Char} (hc : c ≠ '{') :
    (record first w).AvoidsFirst c :=
  wrap_avoidsFirst rfl (Ne.symm hc)

def text : Wire String := embed String.toList (fun value => some (String.ofList value)) (by simp) string

theorem text_avoidsFirst {c : Char} (hc : c ≠ '"') : text.AvoidsFirst c :=
  embed_avoidsFirst (string_avoidsFirst hc)

def uint64 : Wire UInt64 :=
  embed UInt64.toNat (fun n => if n < 2 ^ 64 then some (UInt64.ofNat n) else none)
    (fun value => by simp [value.toNat_lt]) nat

def uint32 : Wire UInt32 :=
  embed UInt32.toNat (fun n => if n < 2 ^ 32 then some (UInt32.ofNat n) else none)
    (fun value => by simp [value.toNat_lt]) nat

def uint16 : Wire UInt16 :=
  embed UInt16.toNat (fun n => if n < 2 ^ 16 then some (UInt16.ofNat n) else none)
    (fun value => by simp [value.toNat_lt]) nat

def uint8 : Wire UInt8 :=
  embed UInt8.toNat (fun n => if n < 2 ^ 8 then some (UInt8.ofNat n) else none)
    (fun value => by simp [value.toNat_lt]) nat

def array (w : Wire α) (hw : w.AvoidsFirst ']') : Wire (List α) :=
  items '[' ']' rfl (by decide) w hw

/-- An object whose field names are data. -/
def object (w : Wire α) : Wire (List (String × α)) :=
  items '{' '}' rfl (by decide) (seq [':'] ⟨_, _, rfl, rfl⟩ text w)
    (seq_avoidsFirst (text_avoidsFirst (by decide)))

/-! ## Totality and length -/

/-- Every value is printed. -/
def Total (w : Wire α) : Prop := ∀ value, (w.print value).isSome

/-- A printed text is at least so long. -/
def AtLeast (w : Wire α) (size : α → Nat) : Prop :=
  ∀ value text, w.print value = some text → size value ≤ text.length

section
variable {w : Wire α} {left : Wire α} {right : Wire β} {size : α → Nat}

theorem total_nat : nat.Total := fun _ => rfl

theorem total_string : string.Total := fun _ => rfl

theorem Total.embed {toValue : β → α} {ofValue : α → Option β} {h} (hw : w.Total) :
    (Wire.embed toValue ofValue h w).Total := fun value => hw (toValue value)

theorem Total.wrap {before after : List Char} {hafter} (hw : w.Total) :
    (Wire.wrap before after hafter w).Total := by
  intro value
  simp only [Wire.wrap, Option.isSome_map]
  exact hw value

theorem Total.seq {sep : List Char} {hsep} (hleft : left.Total) (hright : right.Total) :
    (Wire.seq sep hsep left right).Total := by
  intro value
  have ⟨first, hfirst⟩ := Option.isSome_iff_exists.mp (hleft value.1)
  have ⟨second, hsecond⟩ := Option.isSome_iff_exists.mp (hright value.2)
  simp [Wire.seq, hfirst, hsecond]

theorem Total.items {start close : Char} {hclose hcomma} {hw} (htotal : w.Total) :
    (Wire.items start close hclose hcomma w hw).Total := by
  have hmore (values : List α) : (printMore w close values).isSome := by
    induction values with
    | nil => rfl
    | cons value rest ih =>
      have ⟨text, htext⟩ := Option.isSome_iff_exists.mp (htotal value)
      have ⟨more, hmore⟩ := Option.isSome_iff_exists.mp ih
      simp [printMore, htext, hmore]
  intro values
  cases values with
  | nil => rfl
  | cons value rest =>
    have ⟨text, htext⟩ := Option.isSome_iff_exists.mp (htotal value)
    have ⟨more, hmore⟩ := Option.isSome_iff_exists.mp (hmore rest)
    simp [Wire.items, htext, hmore]

theorem atLeast_zero : w.AtLeast fun _ => 0 := fun _ _ _ => Nat.zero_le _

/-- An escape is at least as long as its character. -/
theorem atLeast_string : string.AtLeast List.length := by
  intro value text hprint
  cases Option.some.inj hprint
  have hescape (c : Char) : 1 ≤ (escape c).length := by
    unfold escape
    repeat' split
    all_goals simp
  have hbody : value.length ≤ (value.flatMap escape).length := by
    induction value with
    | nil => simp
    | cons c value ih =>
      have hfirst := hescape c
      rw [List.flatMap_cons, List.length_append, List.length_cons]
      have := ih rfl
      omega
  simp only [List.length_cons, List.length_append]
  omega

theorem AtLeast.embed {toValue : β → α} {ofValue : α → Option β} {h} (hw : w.AtLeast size) :
    (Wire.embed toValue ofValue h w).AtLeast (size ∘ toValue) :=
  fun value text hprint => hw (toValue value) text hprint

theorem AtLeast.wrap {before after : List Char} {hafter} (hw : w.AtLeast size) :
    (Wire.wrap before after hafter w).AtLeast size := by
  intro value text hprint
  have ⟨inner, hinner, heq⟩ := Option.map_eq_some_iff.mp hprint
  have hlength := hw value inner hinner
  rw [← heq, List.length_append, List.length_append]
  omega

theorem AtLeast.seq {sep : List Char} {hsep} {rightSize : β → Nat} (hleft : left.AtLeast size)
    (hright : right.AtLeast rightSize) :
    (Wire.seq sep hsep left right).AtLeast fun value => size value.1 + rightSize value.2 := by
  intro value text hprint
  simp only [Wire.seq, Option.bind_eq_bind, Option.bind_eq_some_iff, Option.pure_def,
    Option.some.injEq] at hprint
  have ⟨first, hfirst, second, hsecond, heq⟩ := hprint
  have hfirstLength := hleft value.1 first hfirst
  have hsecondLength := hright value.2 second hsecond
  dsimp only
  rw [← heq, List.length_append, List.length_append]
  omega

theorem AtLeast.items {start close : Char} {hclose hcomma} {hw} (hsize : w.AtLeast size) :
    (Wire.items start close hclose hcomma w hw).AtLeast fun values => (values.map size).sum := by
  have hmore (values : List α) (text : List Char) (hprint : printMore w close values = some text) :
      (values.map size).sum ≤ text.length := by
    induction values generalizing text with
    | nil => simp
    | cons value rest ih =>
      simp only [printMore, Option.bind_eq_bind, Option.bind_eq_some_iff, Option.pure_def,
        Option.some.injEq] at hprint
      have ⟨first, hfirst, more, hmore, heq⟩ := hprint
      have hfirstLength := hsize value first hfirst
      have hmoreLength := ih more hmore
      rw [← heq, List.map_cons, List.sum_cons, List.length_append, List.length_cons]
      omega
  intro values text hprint
  cases values with
  | nil => simp
  | cons value rest =>
    simp only [Wire.items, Option.bind_eq_bind, Option.bind_eq_some_iff, Option.pure_def,
      Option.some.injEq] at hprint
    have ⟨first, hfirst, more, hmoreText, heq⟩ := hprint
    have hfirstLength := hsize value first hfirst
    have hmoreLength := hmore rest more hmoreText
    dsimp only
    rw [← heq, List.map_cons, List.sum_cons, List.length_append, List.length_cons]
    omega

end

/-! ## Whole documents -/

/-- A document is exactly one value. -/
def codec (w : Wire α) : Codec α String where
  encode value := (w.print value).map String.ofList
  decode text := match w.parse text.toList with
    | some (value, []) => some value
    | _ => none
  decode_encode := by
    intro value text hencode
    obtain ⟨printed, hprinted, rfl⟩ := Option.map_eq_some_iff.mp hencode
    have := w.parse_print [] hprinted delimited_nil
    rw [List.append_nil] at this
    simp [this]

end Wire

/-- Documents as the bytes of their UTF-8 encoding. -/
def Codec.utf8 {α : Type} (codec : Codec α String) : Codec α (List UInt8) where
  encode value := (codec.encode value).map fun text => text.toUTF8.data.toList
  decode bytes := (String.fromUTF8? ⟨bytes.toArray⟩).bind codec.decode
  decode_encode := by
    intro value bytes hencode
    obtain ⟨text, htext, rfl⟩ := Option.map_eq_some_iff.mp hencode
    have hutf8 : String.fromUTF8? text.toUTF8 = some text := by
      simp [String.fromUTF8?, String.fromUTF8, text.isValidUTF8]
    rw [Array.toArray_toList, hutf8, Option.bind_some, codec.decode_encode htext]

theorem Wire.Total.encode {α : Type} {w : Wire α} (h : w.Total) (value : α) :
    (w.codec.utf8.encode value).isSome := by
  simp only [Codec.utf8, Wire.codec, Option.isSome_map]
  exact h value

/-- A character takes at least one byte. -/
theorem length_le_utf8ByteSize (text : List Char) : text.length ≤ (String.ofList text).utf8ByteSize := by
  induction text with
  | nil => simp
  | cons c rest ih =>
    have hpositive : 0 < c.utf8Size := Char.utf8Size_pos c
    rw [String.ofList_cons, String.utf8ByteSize_append, String.utf8ByteSize_singleton, List.length_cons]
    omega

theorem Wire.AtLeast.encode {α : Type} {w : Wire α} {size : α → Nat} (h : w.AtLeast size) {value : α}
    {bytes : List UInt8} (hencode : w.codec.utf8.encode value = some bytes) :
    size value ≤ bytes.length := by
  simp only [Codec.utf8, Wire.codec, Option.map_map, Option.map_eq_some_iff] at hencode
  have ⟨text, hprint, heq⟩ := hencode
  have hlength := length_le_utf8ByteSize text
  have hsize := h value text hprint
  have hbytes : bytes.length = (String.ofList text).utf8ByteSize := by
    rw [← heq]
    rfl
  omega

end HerdrContext.Library
