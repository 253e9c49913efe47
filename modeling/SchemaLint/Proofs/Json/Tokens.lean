import Mathlib.Algebra.Group.Int.Defs
import Mathlib.Data.List.TakeWhile
import Mathlib.Data.String.Basic
import SchemaLint.Document.Json

/-!
# Written tokens

What is written for a text, a number or a mark is cut off again as the token
that it stands for. For a number this needs what follows not to look like more
of it.
-/

namespace SchemaLint.Json

/-! ## Texts -/

private theorem hexDigit?_digitChar :
    ∀ n < 16, hexDigit? (Nat.digitChar n) = some n := by
  decide

private theorem hexUnit?_digitChar {n : Nat} (hsmall : n < 256) :
    hexUnit? '0' '0' (Nat.digitChar (n / 16)) (Nat.digitChar (n % 16)) =
      some n := by
  have hzero : hexDigit? '0' = some 0 := by decide
  have hupper := hexDigit?_digitChar (n / 16) (by omega)
  have hlower := hexDigit?_digitChar (n % 16) (by omega)
  simp only [hexUnit?, hzero, hupper, hlower, Option.bind_eq_bind,
    Option.bind_some, Option.pure_def, Option.some.injEq]
  omega

private theorem readText_escapeChar (c : Char) (reversed rest : List Char) :
    readText (some ⟨reversed, none⟩) (escapeChar c ++ rest) =
      readText (some ⟨c :: reversed, none⟩) rest := by
  unfold escapeChar
  split
  case h_8 hquote hslash _ _ _ _ _ =>
    split
    · next hcontrol =>
        have hunit := @hexUnit?_digitChar c.toNat (by omega)
        have hhigh : isHighSurrogate c.toNat = false := by
          simp only [isHighSurrogate, Bool.and_eq_false_iff,
            decide_eq_false_iff_not]
          omega
        have hlow : isLowSurrogate c.toNat = false := by
          simp only [isLowSurrogate, Bool.and_eq_false_iff,
            decide_eq_false_iff_not]
          omega
        simp [readText, hunit, OpenText.pushUnit, hhigh, hlow]
    · next hvisible =>
        rw [List.singleton_append, readText.eq_def]
        split
        all_goals simp_all [OpenText.push]
  all_goals simp [readText, shortEscape?, OpenText.push]

private theorem readText_escaped (chars reversed rest : List Char) :
    readText (some ⟨reversed, none⟩) (chars.flatMap escapeChar ++ '"' :: rest) =
      some (some (String.ofList (reversed.reverse ++ chars)), rest) := by
  induction chars generalizing reversed with
  | nil => simp [readText, OpenText.close]
  | cons c chars ih =>
      rw [List.flatMap_cons, List.append_assoc, readText_escapeChar, ih]
      simp

/-! ## Marks and spaces -/

@[simp] theorem tokens?_nil : tokens? [] = some [] := by
  rw [tokens?]

theorem tokens?_space {c : Char} (hspace : isSpace c = true)
    (rest : List Char) : tokens? (c :: rest) = tokens? rest := by
  rw [tokens?, if_pos hspace]

theorem tokens?_blank {blank : List Char}
    (hspaces : ∀ c ∈ blank, isSpace c = true) (rest : List Char) :
    tokens? (blank ++ rest) = tokens? rest := by
  induction blank with
  | nil => rfl
  | cons c blank ih =>
      rw [List.cons_append, tokens?_space (hspaces c List.mem_cons_self)]
      exact ih fun c hmember => hspaces c (List.mem_cons_of_mem _ hmember)

theorem tokens?_visible {c : Char} (hvisible : isSpace c = false)
    (chars : List Char) :
    tokens? (c :: chars) =
      (readToken (c :: chars)).bind fun (token, after) =>
        (tokens? after).map (token :: ·) := by
  rw [tokens?, if_neg (by simp [hvisible])]
  split
  · next hfailed => rw [hfailed, Option.bind_none]
  · next hfound => simp only [hfound, Option.bind_some]

theorem tokens?_of_readToken {c : Char} {chars after : List Char}
    {token : Token} (hvisible : isSpace c = false)
    (hread : readToken (c :: chars) = some (token, after)) :
    tokens? (c :: chars) = (tokens? after).map (token :: ·) := by
  rw [tokens?_visible hvisible, hread, Option.bind_some]

def Marks (text : String) (tokens : List Token) : Prop :=
  ∀ rest, tokens? (text.toList ++ rest) = (tokens? rest).map (tokens ++ ·)

theorem marks_openList : Marks "[" [.openList] :=
  fun _ => tokens?_of_readToken rfl rfl

theorem marks_closeList : Marks "]" [.closeList] :=
  fun _ => tokens?_of_readToken rfl rfl

theorem marks_openRecord : Marks "\x7b" [.openRecord] :=
  fun _ => tokens?_of_readToken rfl rfl

theorem marks_closeRecord : Marks "\x7d" [.closeRecord] :=
  fun _ => tokens?_of_readToken rfl rfl

theorem marks_comma : Marks "," [.comma] :=
  fun _ => tokens?_of_readToken rfl rfl

theorem marks_colon : Marks ":" [.colon] :=
  fun _ => tokens?_of_readToken rfl rfl

theorem marks_null : Marks "null" [.scalar .null] :=
  fun _ => tokens?_of_readToken rfl rfl

private theorem marks_bool (b : Bool) :
    Marks (writeScalar (.bool b)) [.scalar (.bool b)] := by
  cases b <;> exact fun _ => tokens?_of_readToken rfl rfl

theorem marks_blank {text : String}
    (hspaces : ∀ c ∈ text.toList, isSpace c = true) : Marks text [] := by
  intro rest
  rw [tokens?_blank hspaces]
  simp

private theorem readToken_quote (chars : List Char) :
    readToken ('"' :: chars) =
      (readText (some ⟨[], none⟩) chars).map fun (s, rest) => (.text s, rest) :=
  rfl

theorem marks_text (s : String) : Marks (writeText s) [.text (some s)] := by
  intro rest
  rw [writeText, String.toList_ofList]
  refine tokens?_of_readToken rfl ?_
  have hread := readText_escaped s.toList [] rest
  simp only [List.append_eq, List.append_assoc, List.singleton_append]
  rw [readToken_quote, hread]
  simp

/-! ## Numbers -/

def Delimited : List Char → Prop
  | [] => True
  | c :: _ => c.isDigit = false ∧ c ≠ '.' ∧ c ≠ 'e' ∧ c ≠ 'E'

section

variable {rest : List Char} (hdelimited : Delimited rest)
include hdelimited

theorem digitsOf_append (chars : List Char) :
    digitsOf (chars ++ rest) =
      ((digitsOf chars).1, (digitsOf chars).2 ++ rest) := by
  induction chars with
  | nil =>
      cases rest with
      | nil => rfl
      | cons c rest => simp [digitsOf, hdelimited.1]
  | cons c chars ih =>
      simp only [digitsOf, Prod.mk.injEq] at ih
      cases hdigit : c.isDigit <;> simp [digitsOf, hdigit, ih]

theorem readFraction_append {chars digits after : List Char}
    (hread : readFraction chars = some (digits, after)) :
    readFraction (chars ++ rest) = some (digits, after ++ rest) := by
  match chars with
  | [] =>
      cases hread
      cases rest with
      | nil => rfl
      | cons c rest => simp [readFraction, hdelimited.2.1]
  | c :: chars =>
      by_cases hpoint : c = '.'
      · subst hpoint
        simp only [readFraction, List.cons_append, digitsOf_append hdelimited,
          Option.ite_none_left_eq_some, Option.some.injEq,
          Prod.mk.injEq] at hread ⊢
        exact ⟨hread.1, hread.2.1, by rw [hread.2.2]⟩
      · have hbare (tail : List Char) :
            readFraction (c :: tail) = some ([], c :: tail) := by
          simp [readFraction, hpoint]
        cases (hbare chars).symm.trans hread
        exact hbare (chars ++ rest)

theorem readExponent_append {chars after : List Char} {n : Int}
    (hread : readExponent chars = some (n, after)) :
    readExponent (chars ++ rest) = some (n, after ++ rest) := by
  match chars with
  | [] => simp [readExponent, digitsOf] at hread
  | c :: chars =>
      have htail := digitsOf_append hdelimited chars
      have hwhole := digitsOf_append hdelimited (c :: chars)
      rw [List.cons_append] at hwhole ⊢
      by_cases hplus : c = '+'
      · subst hplus
        simp_all [readExponent]
      · by_cases hminus : c = '-'
        · subst hminus
          simp_all [readExponent]
        · simp_all [readExponent]

theorem readScale_append {chars after : List Char} {exponent : Option Int}
    (hread : readScale chars = some (exponent, after)) :
    readScale (chars ++ rest) = some (exponent, after ++ rest) := by
  match chars with
  | [] =>
      cases hread
      cases rest with
      | nil => rfl
      | cons c rest => simp [readScale, hdelimited.2.2.1, hdelimited.2.2.2]
  | c :: chars =>
      by_cases hlower : c = 'e'
      · subst hlower
        simp only [readScale, List.cons_append, Option.map_eq_some_iff,
          Prod.mk.injEq, Prod.exists] at hread ⊢
        obtain ⟨n, _, hfound, rfl, rfl⟩ := hread
        exact ⟨n, _, readExponent_append hdelimited hfound, rfl, rfl⟩
      · by_cases hupper : c = 'E'
        · subst hupper
          simp only [readScale, List.cons_append, Option.map_eq_some_iff,
            Prod.mk.injEq, Prod.exists] at hread ⊢
          obtain ⟨n, _, hfound, rfl, rfl⟩ := hread
          exact ⟨n, _, readExponent_append hdelimited hfound, rfl, rfl⟩
        · have hbare (tail : List Char) :
              readScale (c :: tail) = some (none, c :: tail) := by
            simp [readScale, hlower, hupper]
          cases (hbare chars).symm.trans hread
          exact hbare (chars ++ rest)

theorem readMagnitude_append {negative : Bool} {chars after : List Char}
    {value : Scalar}
    (hread : readMagnitude negative chars = some (value, after)) :
    readMagnitude negative (chars ++ rest) = some (value, after ++ rest) := by
  simp only [readMagnitude, digitsOf_append hdelimited] at hread ⊢
  split at hread
  · next hwhole =>
      simp only [Option.bind_eq_bind, Option.bind_eq_some_iff,
        Prod.exists] at hread
      obtain ⟨fraction, afterFraction, hfirst, exponent, afterScale, hsecond,
          hresult⟩ := hread
      cases hresult
      simp only [hwhole, if_true, readFraction_append hdelimited hfirst,
        readScale_append hdelimited hsecond, Option.bind_eq_bind,
        Option.bind_some]
      rfl
  · cases hread

end

theorem addDigits_eq {digits : List Char} {significand : Nat}
    (hbound : Nat.ofDigitChars 10 digits significand < Nat.pow 2 64) :
    addDigits significand digits =
      (Nat.ofDigitChars 10 digits significand, digits.length, 0) := by
  induction digits generalizing significand with
  | nil => rfl
  | cons c digits ih =>
      have hsame : significand * 10 + (c.toNat - '0'.toNat) =
          10 * significand + (c.toNat - '0'.toNat) := by omega
      rw [Nat.ofDigitChars_cons] at hbound ⊢
      have hsmall : 10 * significand + (c.toNat - '0'.toNat) <
          Nat.pow 2 64 := by
        rw [Nat.ofDigitChars_eq_ofDigitChars_zero] at hbound
        have hscale : 0 < 10 ^ digits.length := Nat.pow_pos (by decide)
        have hgrows :=
          Nat.le_mul_of_pos_left (10 * significand + (c.toNat - '0'.toNat))
            hscale
        omega
      simp only [addDigits, hsame, hsmall, if_true, ih hbound, List.length_cons]

private theorem digitsOf_toDigits (n : Nat) :
    digitsOf (Nat.toDigits 10 n) = (Nat.toDigits 10 n, []) := by
  have hdigits : ∀ c ∈ Nat.toDigits 10 n, c.isDigit = true := fun c hmember =>
    Nat.isDigit_of_mem_toDigits (by decide) (by decide) hmember
  rw [digitsOf, List.takeWhile_eq_self_iff.2 hdigits,
    List.dropWhile_eq_nil_iff.2 hdigits]

private theorem head?_toDigits {n : Nat} (hpositive : 0 < n) :
    (Nat.toDigits 10 n).head? ≠ some '0' := by
  induction n using Nat.strongRecOn with
  | ind n ih =>
      rw [Nat.toDigits_eq_if (by decide)]
      split
      · next hsmall =>
          have hnonzero : ∀ n < 10, 0 < n → Nat.digitChar n ≠ '0' := by decide
          simpa using hnonzero n hsmall hpositive
      · rw [List.head?_append_of_ne_nil _ Nat.toDigits_ne_nil]
        exact ih (n / 10) (by omega) (by omega)

private theorem areWhole_toDigits (n : Nat) :
    areWhole (Nat.toDigits 10 n) = true := by
  cases n with
  | zero => rfl
  | succ n =>
      have hhead := @head?_toDigits (n + 1) (by omega)
      simp [areWhole, Nat.toDigits_ne_nil, hhead]

theorem readMagnitude_toDigits {negative : Bool} {n : Nat}
    (hfits : if negative then 0 < n ∧ n ≤ 2 ^ 63 else n < 2 ^ 64) :
    readMagnitude negative (Nat.toDigits 10 n) =
      some (.number (.whole (if negative then -(n : Int) else n)), []) := by
  have hvalue : Nat.ofDigitChars 10 (Nat.toDigits 10 n) 0 = n :=
    Nat.ofDigitChars_ten_toDigits
  have hsmall : n < Nat.pow 2 64 := by
    cases negative with
    | true => exact Nat.lt_of_le_of_lt hfits.2 (by decide)
    | false => exact hfits
  have hadded : addDigits 0 (Nat.toDigits 10 n) =
      (n, (Nat.toDigits 10 n).length, 0) := by
    rw [addDigits_eq (by rwa [hvalue]), hvalue]
  have hnumber : numberOf negative (Nat.toDigits 10 n) [] none =
      some (.whole (if negative then -(n : Int) else n)) := by
    have hpower : Nat.pow 2 63 = 2 ^ 63 := rfl
    cases negative <;> simp_all [numberOf]
  simp [readMagnitude, digitsOf_toDigits, areWhole_toDigits, readFraction,
    readScale, hnumber]

/-! ## Scalars -/

def StartsNumber (c : Char) : Prop := c = '-' ∨ c.isDigit = true

theorem StartsNumber.visible {c : Char} (hstarts : StartsNumber c) :
    isSpace c = false := by
  rcases hstarts with rfl | hdigit
  · rfl
  · by_contra hspace
    simp only [isSpace, Bool.not_eq_false, Bool.or_eq_true,
      beq_iff_eq] at hspace
    rcases hspace with ((rfl | rfl) | rfl) | rfl <;>
      exact absurd hdigit (by decide)

def numberToken (read : Scalar × List Char) : Token × List Char :=
  (.scalar read.1, read.2)

theorem readToken_minus (chars : List Char) :
    readToken ('-' :: chars) = (readMagnitude true chars).map numberToken :=
  rfl

theorem readToken_digit {c : Char} (hdigit : c.isDigit = true)
    (chars : List Char) :
    readToken (c :: chars) =
      (readMagnitude false (c :: chars)).map numberToken := by
  rw [readToken.eq_def]
  split
  case h_12 => rfl
  all_goals
    rename_i hsame
    cases (List.cons.inj hsame).1
    exact absurd hdigit (by decide)

private theorem readToken_scalar {c : Char} {chars after : List Char}
    {token : Token} (hstarts : StartsNumber c)
    (hread : readToken (c :: chars) = some (token, after)) :
    ∃ value, token = .scalar value := by
  rcases hstarts with rfl | hdigit
  · rw [readToken_minus] at hread
    obtain ⟨found, -, hresult⟩ := Option.map_eq_some_iff.1 hread
    exact ⟨found.1, (congrArg Prod.fst hresult).symm⟩
  · rw [readToken_digit hdigit] at hread
    obtain ⟨found, -, hresult⟩ := Option.map_eq_some_iff.1 hread
    exact ⟨found.1, (congrArg Prod.fst hresult).symm⟩

theorem readToken_append {c : Char} {chars after rest : List Char}
    {token : Token} (hstarts : StartsNumber c)
    (hread : readToken (c :: chars) = some (token, after))
    (hdelimited : Delimited rest) :
    readToken (c :: (chars ++ rest)) = some (token, after ++ rest) := by
  rcases hstarts with rfl | hdigit
  · rw [readToken_minus] at hread ⊢
    obtain ⟨_, hfound, hresult⟩ := Option.map_eq_some_iff.1 hread
    cases hresult
    rw [readMagnitude_append hdelimited hfound]
    rfl
  · rw [readToken_digit hdigit] at hread ⊢
    obtain ⟨_, hfound, hresult⟩ := Option.map_eq_some_iff.1 hread
    cases hresult
    rw [← List.cons_append, readMagnitude_append hdelimited hfound]
    rfl

theorem tokens?_number {c : Char} {chars after rest : List Char} {token : Token}
    (hstarts : StartsNumber c)
    (hread : readToken (c :: chars) = some (token, after))
    (hdelimited : Delimited rest) :
    tokens? (c :: (chars ++ rest)) =
      (tokens? (after ++ rest)).map (token :: ·) :=
  tokens?_of_readToken hstarts.visible
    (readToken_append hstarts hread hdelimited)

private theorem tokens?_whole {n : Int} (hleast : -2 ^ 63 ≤ n)
    (hbound : n < 2 ^ 64) {rest : List Char} (hdelimited : Delimited rest) :
    tokens? ((toString n).toList ++ rest) =
      (tokens? rest).map (.scalar (.number (.whole n)) :: ·) := by
  cases n with
  | ofNat n =>
      have hread := @readMagnitude_toDigits false n (Int.ofNat_lt.1 hbound)
      rw [show toString (Int.ofNat n) = toString n from rfl,
        Nat.toString_eq_ofList_toDigits, String.toList_ofList]
      match hshape : Nat.toDigits 10 n with
      | [] => exact absurd hshape Nat.toDigits_ne_nil
      | c :: digits =>
          have hdigit : c.isDigit = true :=
            @Nat.isDigit_of_mem_toDigits 10 n c (by decide) (by decide)
              (by rw [hshape]; exact List.mem_cons_self)
          rw [hshape] at hread
          exact tokens?_number (.inr hdigit)
            (by rw [readToken_digit hdigit, hread]; rfl) hdelimited
  | negSucc n =>
      have hread := @readMagnitude_toDigits true (n + 1) ⟨by omega, by omega⟩
      rw [show toString (Int.negSucc n) = "-" ++ toString (n + 1) from rfl,
        Nat.toString_eq_ofList_toDigits]
      simp only [String.toList_append, String.toList_ofList]
      exact tokens?_number (.inl rfl) (by rw [readToken_minus, hread]; rfl)
        hdelimited

/-! ### Doubles -/

/-- The text of a double is read as that double. -/
def ReadsBack (x : Decimal.Double) : Prop :=
  parse? (compact (.real x)) = some (.real x)

theorem isSpace_of_tokens?_eq_nil {chars : List Char}
    (hnone : tokens? chars = some []) : ∀ c ∈ chars, isSpace c = true := by
  induction chars with
  | nil => simp
  | cons c chars ih =>
      cases hspace : isSpace c with
      | true =>
          rw [tokens?_space hspace] at hnone
          simpa [hspace] using ih hnone
      | false =>
          rw [tokens?_visible hspace] at hnone
          simp [Option.bind_eq_some_iff] at hnone

private theorem ofTokens?_scalar {value : Scalar} {tokens : List Token}
    {document : Document}
    (hread : ofTokens? (.scalar value :: tokens) = some document) :
    tokens = [] ∧ document = .scalar value none := by
  cases tokens with
  | nil =>
      cases hread
      exact ⟨rfl, rfl⟩
  | cons token tokens =>
      have hstuck : step (.done (.scalar value none)) token = none := by
        cases token <;> rfl
      have hfailed : (Token.scalar value :: token :: tokens).foldlM step
            (.value [] false) = none := by
        rw [List.foldlM_cons, show step (.value [] false) (.scalar value) =
            some (.done (.scalar value none)) from rfl, Option.bind_eq_bind,
          Option.bind_some, List.foldlM_cons, hstuck, Option.bind_eq_bind,
          Option.bind_none]
      rw [ofTokens?, hfailed] at hread
      cases hread

def StartsDigit (chars : List Char) : Prop :=
  ∃ c rest, chars = c :: rest ∧ c.isDigit = true

theorem StartsDigit.toDigits (n : Nat) : StartsDigit (Nat.toDigits 10 n) := by
  match hshape : Nat.toDigits 10 n with
  | [] => exact absurd hshape Nat.toDigits_ne_nil
  | c :: rest =>
      refine ⟨c, rest, rfl,
        @Nat.isDigit_of_mem_toDigits 10 n c (by decide) (by decide) ?_⟩
      rw [hshape]
      exact List.mem_cons_self

theorem StartsDigit.append {chars : List Char} (hstarts : StartsDigit chars)
    (tail : List Char) : StartsDigit (chars ++ tail) := by
  obtain ⟨c, rest, rfl, hdigit⟩ := hstarts
  exact ⟨c, rest ++ tail, rfl, hdigit⟩

theorem StartsDigit.take {chars : List Char} (hstarts : StartsDigit chars)
    {count : Nat} (hsome : 0 < count) : StartsDigit (chars.take count) := by
  obtain ⟨c, rest, rfl, hdigit⟩ := hstarts
  obtain ⟨count, rfl⟩ := Nat.exists_eq_succ_of_ne_zero hsome.ne'
  exact ⟨c, rest.take count, rfl, hdigit⟩

theorem StartsDigit.positional (decimal : Decimal.Scaled) :
    StartsDigit (Decimal.positional decimal) := by
  have hdigits := toDigits decimal.digits
  unfold Decimal.positional
  split
  · exact hdigits.append _
  · next count _ =>
      dsimp only
      split
      · next hinside => exact (hdigits.take (by omega)).append _
      · exact ⟨'0', _, rfl, rfl⟩

theorem markedText_eq (negative : Bool) (mantissa : Nat) (exponent : Int) :
    ∃ digits, StartsDigit digits ∧
      Decimal.markedText negative mantissa exponent =
        String.ofList (if negative then '-' :: digits else digits) := by
  unfold Decimal.markedText
  split
  · exact ⟨['0', '.', '0'], ⟨'0', _, rfl, rfl⟩, rfl⟩
  · refine ⟨_, ?_, rfl⟩
    split
    · exact (((StartsDigit.toDigits _).take Nat.one_pos).append _).append _
    · split
      · exact (StartsDigit.positional _).append _
      · exact StartsDigit.positional _

theorem ReadsBack.isFinite {x : Decimal.Double} (hreadsBack : ReadsBack x) :
    x.isFinite = true := by
  have hnone (hother : writeScalar (.number (.real x)) = "null") : False := by
    have htokens : tokens? "null".toList = some [.scalar .null] := by
      simpa using marks_null []
    simp only [ReadsBack, parse?, compact, Document.real, write, hother,
      htokens, Option.bind_eq_bind, Option.bind_some] at hreadsBack
    cases hreadsBack
  cases x with
  | finite => rfl
  | infinite => exact (hnone rfl).elim
  | notANumber => exact (hnone rfl).elim

private theorem startsNumber_real {x : Decimal.Double}
    (hisFinite : x.isFinite = true) :
    ∃ c chars, (writeScalar (.number (.real x))).toList = c :: chars ∧
      StartsNumber c := by
  match x with
  | .finite negative mantissa exponent =>
      obtain ⟨digits, ⟨c, chars, rfl, hdigit⟩, hsame⟩ :=
        markedText_eq negative mantissa exponent
      rw [writeScalar, hsame, String.toList_ofList]
      cases negative with
      | true => exact ⟨'-', c :: chars, rfl, .inl rfl⟩
      | false => exact ⟨c, chars, rfl, .inr hdigit⟩

theorem tokens?_real {x : Decimal.Double} (hreadsBack : ReadsBack x)
    {rest : List Char} (hdelimited : Delimited rest) :
    tokens? ((writeScalar (.number (.real x))).toList ++ rest) =
      (tokens? rest).map (.scalar (.number (.real x)) :: ·) := by
  obtain ⟨c, chars, htext, hstarts⟩ := startsNumber_real hreadsBack.isFinite
  simp only [ReadsBack, parse?, compact, Document.real, write, htext,
    Option.bind_eq_bind, Option.bind_eq_some_iff] at hreadsBack
  obtain ⟨tokens, hcut, document, hparsed, hsame⟩ := hreadsBack
  rw [tokens?_visible hstarts.visible, Option.bind_eq_some_iff] at hcut
  obtain ⟨⟨token, after⟩, hread, hcut⟩ := hcut
  obtain ⟨others, hnone, rfl⟩ := Option.map_eq_some_iff.1 hcut
  obtain ⟨value, rfl⟩ := readToken_scalar hstarts hread
  obtain ⟨rfl, rfl⟩ := ofTokens?_scalar hparsed
  cases hsame
  rw [htext, List.cons_append, tokens?_number hstarts hread hdelimited,
    tokens?_blank (isSpace_of_tokens?_eq_nil hnone)]

theorem readsBack_iff {x : Decimal.Double} :
    ReadsBack x ↔
      tokens? (writeScalar (.number (.real x))).toList =
        some [.scalar (.number (.real x))] := by
  constructor
  · intro hreadsBack
    simpa using @tokens?_real x hreadsBack [] trivial
  · intro htokens
    rw [ReadsBack, parse?, compact, Document.real, write, htokens]
    rfl

instance (x : Decimal.Double) : Decidable (ReadsBack x) :=
  decidable_of_iff _ readsBack_iff.symm

def Legible : Scalar → Prop
  | .null | .bool _ | .text _ => True
  | .number (.whole n) => -2 ^ 63 ≤ n ∧ n < 2 ^ 64
  | .number (.real x) => ReadsBack x
  | .number .minusZero | .unreadable => False

def tokenOf : Scalar → Token
  | .text s => .text (some s)
  | value => .scalar value

theorem tokens?_scalar {value : Scalar} (hlegible : Legible value)
    {rest : List Char} (hdelimited : Delimited rest) :
    tokens? ((writeScalar value).toList ++ rest) =
      (tokens? rest).map (tokenOf value :: ·) := by
  match value with
  | .null => exact marks_null rest
  | .bool b => exact marks_bool b rest
  | .text s => exact marks_text s rest
  | .number (.whole n) => exact tokens?_whole hlegible.1 hlegible.2 hdelimited
  | .number (.real x) => exact tokens?_real hlegible hdelimited

end SchemaLint.Json
