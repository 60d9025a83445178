import Mathlib.Data.List.Forall2
import Mathlib.Data.List.TakeWhile
import Xineliboutput.Server.PlayfileRequest

/-!
# Who may read which file

Both decoders cut a text into the same units: a byte, or an escape and its value. The
comparison looks at the values of the units and the streamer opens their low bytes, so
the two agree on everything but the sign of a byte and the NUL that ends a name.
-/

namespace Xineliboutput.Server

open Xineliboutput.Foundation

set_option autoImplicit false

/-! ## Units of a text -/

/-- What the rounds of the loop compare, one after the other. -/
def units : List UInt8 → List Int
  | byte :: first :: second :: rest =>
      if byte = 37 then
        match scanHex (first :: second :: rest) with
        | some value => value :: units rest
        | none => signedChar byte :: units (first :: second :: rest)
      else signedChar byte :: units (first :: second :: rest)
  | text => text.map signedChar

theorem units_cons (byte : UInt8) (rest : List UInt8) :
    units (byte :: rest) = (nextUnit byte rest).1 :: units (nextUnit byte rest).2 := by
  cases rest with
  | nil => simp [units, nextUnit]
  | cons first rest =>
      cases rest with
      | nil => simp [units, nextUnit]
      | cons second rest =>
          by_cases percent : byte = 37
          · cases scanned : scanHex (first :: second :: rest) with
            | none => simp [units, nextUnit, percent, scanned]
            | some value => simp [units, nextUnit, percent, scanned]
          · simp [units, nextUnit, percent]

theorem next_unit_length (byte : UInt8) (rest : List UInt8) :
    (nextUnit byte rest).2.length ≤ rest.length := by
  unfold nextUnit
  split
  · split
    · rw [List.length_drop]
      omega
    · exact Nat.le_refl _
  · exact Nat.le_refl _

theorem strcmp_loop_zero_iff (rounds : Nat) (s1 s2 : List UInt8) (enough : s1.length ≤ rounds) :
    strcmpLoop rounds s1 s2 = 0 ↔ units s1 = units s2 := by
  induction rounds generalizing s1 s2 with
  | zero =>
      have empty : s1 = [] := List.length_eq_zero_iff.mp (Nat.le_zero.mp enough)
      subst empty
      cases s2 with
      | nil => simp [strcmpLoop]
      | cons byte rest => simp [strcmpLoop, units_cons byte rest, units]
  | succ rounds induction =>
      cases s1 with
      | nil =>
          cases s2 with
          | nil => simp [strcmpLoop]
          | cons byte rest => simp [strcmpLoop, units_cons byte rest, units]
      | cons byte1 rest1 =>
          cases s2 with
          | nil => simp [strcmpLoop, units_cons byte1 rest1, units]
          | cons byte2 rest2 =>
              have shorter := next_unit_length byte1 rest1
              have same := induction (nextUnit byte1 rest1).2 (nextUnit byte2 rest2).2
                (by rw [List.length_cons] at enough; omega)
              rw [units_cons byte1, units_cons byte2, List.cons.injEq]
              dsimp only [strcmpLoop]
              split
              · constructor
                · intro impossible
                  omega
                · intro equal
                  omega
              · split
                · constructor
                  · intro impossible
                    omega
                  · intro equal
                    omega
                · rw [same]
                  constructor
                  · intro equal
                    exact ⟨by omega, equal⟩
                  · intro equal
                    exact equal.2

theorem strcmp_escaped_zero_iff (s1 s2 : List UInt8) :
    strcmpEscaped s1 s2 = 0 ↔ units (withoutFile s1) = units s2 :=
  strcmp_loop_zero_iff _ _ _ (Nat.le_refl _)

/-! ## The value of a unit and its byte -/

theorem char_of_signed_char (byte : UInt8) : charOf (signedChar byte) = byte := by
  have small := byte.toNat_lt
  have residue : (signedChar byte % 256).toNat = byte.toNat := by
    unfold signedChar
    split
    · omega
    · omega
  rw [charOf, residue, UInt8.ofNat_toNat]

theorem char_of_nat (byte : UInt8) : charOf (byte.toNat : Int) = byte := by
  have small := byte.toNat_lt
  have residue : ((byte.toNat : Int) % 256).toNat = byte.toNat := by omega
  rw [charOf, residue, UInt8.ofNat_toNat]

theorem char_of_to_nat (value : Int) : (charOf value).toNat = (value % 256).toNat := by
  rw [charOf, UInt8.toNat_ofNat']
  omega

theorem hex_value_lt (byte : UInt8) (value : Nat) (scanned : hexValue byte = some value) :
    value < 16 := by
  unfold hexValue at scanned
  split at scanned
  · cases scanned
    omega
  · split at scanned
    · cases scanned
      omega
    · split at scanned
      · cases scanned
        omega
      · cases scanned

theorem scan_hex_bounds (text : List UInt8) (value : Int) (scanned : scanHex text = some value) :
    -128 ≤ value ∧ value ≤ 255 := by
  unfold scanHex at scanned
  split at scanned
  · cases scanned
  · rename_i byte rest shape
    split at scanned
    · obtain ⟨digit, found, rfl⟩ := Option.map_eq_some_iff.mp scanned
      obtain ⟨head, _, digitOf⟩ := Option.bind_eq_some_iff.mp found
      have bound := hex_value_lt head digit digitOf
      omega
    · split at scanned
      · obtain ⟨digit, found, rfl⟩ := Option.map_eq_some_iff.mp scanned
        obtain ⟨head, _, digitOf⟩ := Option.bind_eq_some_iff.mp found
        have bound := hex_value_lt head digit digitOf
        omega
      · split at scanned
        · cases scanned
        · rename_i high low highOf found
          obtain ⟨head, _, lowOf⟩ := Option.bind_eq_some_iff.mp found
          have highBound := hex_value_lt byte high highOf
          have lowBound := hex_value_lt head low lowOf
          cases scanned
          omega
        · rename_i high highOf _
          have highBound := hex_value_lt byte high highOf
          split at scanned
          · cases scanned
          · cases scanned
            omega

theorem signed_char_bounds (byte : UInt8) : -128 ≤ signedChar byte ∧ signedChar byte ≤ 255 := by
  have small := byte.toNat_lt
  unfold signedChar
  split
  · omega
  · omega

theorem units_bounds (text : List UInt8) :
    ∀ value ∈ units text, -128 ≤ value ∧ value ≤ 255 := by
  induction text using units.induct with
  | case1 first second rest value scanned induction =>
      intro unit member
      simp only [units, if_pos, scanned, List.mem_cons] at member
      cases member with
      | inl equal =>
          rw [equal]
          exact scan_hex_bounds _ _ scanned
      | inr later => exact induction unit later
  | case2 first second rest scanned induction =>
      intro unit member
      simp only [units, if_pos, scanned, List.mem_cons] at member
      cases member with
      | inl equal =>
          rw [equal]
          exact signed_char_bounds 37
      | inr later => exact induction unit later
  | case3 byte first second rest other induction =>
      intro unit member
      simp only [units, if_neg other, List.mem_cons] at member
      cases member with
      | inl equal =>
          rw [equal]
          exact signed_char_bounds byte
      | inr later => exact induction unit later
  | case4 text short =>
      intro unit member
      rw [units.eq_2 text short, List.mem_map] at member
      obtain ⟨byte, _, rfl⟩ := member
      exact signed_char_bounds byte

theorem unescape_uri_eq (text : List UInt8) : unescapeUri text = (units text).map charOf := by
  induction text using units.induct with
  | case1 first second rest value scanned induction =>
      simp only [units, unescapeUri, if_pos, scanned, List.map_cons]
      rw [induction]
  | case2 first second rest scanned induction =>
      simp only [units, unescapeUri, if_pos, scanned, List.map_cons]
      rw [induction, char_of_signed_char]
  | case3 byte first second rest other induction =>
      simp only [units, unescapeUri, if_neg other, List.map_cons]
      rw [induction, char_of_signed_char]
  | case4 text short =>
      rw [units.eq_2 text short, unescapeUri.eq_2 text short, List.map_map]
      have identity : charOf ∘ signedChar = id := by
        funext byte
        exact char_of_signed_char byte
      rw [identity, List.map_id]

/-! ## Spellings of a name -/

/-- Position by position, a byte from 1 to 127 may be spelled in any way, and any other byte
is spelled in the same way in both texts. Behind an encoded NUL all of it is the same. -/
def AlikeUnits : List Int → List Int → Prop
  | [], [] => True
  | value1 :: rest1, value2 :: rest2 =>
      if (0 < value1 ∧ value1 < 128) ∧ 0 < value2 ∧ value2 < 128 then AlikeUnits rest1 rest2
      else value1 = value2 ∧ if value1 = 0 then rest1 = rest2 else AlikeUnits rest1 rest2
  | _, _ => False

def SpelledAlike (a b : List UInt8) : Prop := AlikeUnits (units a) (units b)

def nameOfUnits (values : List Int) : List UInt8 := (values.map charOf).takeWhile (notByte 0)

theorem decoded_name_eq (text : List UInt8) : decodedName text = nameOfUnits (units text) := by
  rw [decodedName, unescape_uri_eq, nameOfUnits]

theorem char_of_zero_iff (value : Int) (bounds : -128 ≤ value ∧ value ≤ 255) :
    charOf value = 0 ↔ value = 0 := by
  rw [← UInt8.toNat_inj, char_of_to_nat]
  change (value % 256).toNat = 0 ↔ value = 0
  omega

theorem name_of_units_nul (rest : List Int) : nameOfUnits (0 :: rest) = [] := rfl

theorem name_of_units_cons (value : Int) (rest : List Int) (bounds : -128 ≤ value ∧ value ≤ 255)
    (nonzero : value ≠ 0) :
    nameOfUnits (value :: rest) = charOf value :: nameOfUnits rest := by
  have kept : notByte 0 (charOf value) = true := by
    rw [notByte, bne_iff_ne]
    exact fun equal => nonzero ((char_of_zero_iff value bounds).mp equal)
  rw [nameOfUnits, List.map_cons, List.takeWhile_cons_of_pos kept, nameOfUnits]

/-- Where the names are the same, texts that are spelled alike have the same units. -/
theorem alike_units_iff (values1 values2 : List Int)
    (bounds1 : ∀ value ∈ values1, -128 ≤ value ∧ value ≤ 255)
    (bounds2 : ∀ value ∈ values2, -128 ≤ value ∧ value ≤ 255)
    (same : nameOfUnits values1 = nameOfUnits values2) :
    AlikeUnits values1 values2 ↔ values1 = values2 := by
  induction values1 generalizing values2 with
  | nil =>
      cases values2 with
      | nil => simp [AlikeUnits]
      | cons value2 rest2 => simp [AlikeUnits]
  | cons value1 rest1 induction =>
      cases values2 with
      | nil => simp [AlikeUnits]
      | cons value2 rest2 =>
          have head1 := bounds1 value1 List.mem_cons_self
          have head2 := bounds2 value2 List.mem_cons_self
          have next := induction rest2
            (fun value member => bounds1 value (List.mem_cons_of_mem _ member))
            (fun value member => bounds2 value (List.mem_cons_of_mem _ member))
          rw [List.cons.injEq, AlikeUnits]
          by_cases plain : (0 < value1 ∧ value1 < 128) ∧ 0 < value2 ∧ value2 < 128
          · rw [if_pos plain]
            rw [name_of_units_cons value1 rest1 head1 (by omega),
              name_of_units_cons value2 rest2 head2 (by omega), List.cons.injEq] at same
            have bytes := congrArg UInt8.toNat same.1
            rw [char_of_to_nat, char_of_to_nat] at bytes
            have equal : value1 = value2 := by omega
            rw [next same.2]
            exact ⟨fun rest => ⟨equal, rest⟩, And.right⟩
          · rw [if_neg plain]
            apply and_congr_right
            intro equal
            subst equal
            by_cases zero : value1 = 0
            · rw [if_pos zero]
            · rw [if_neg zero]
              apply next
              rw [name_of_units_cons value1 rest1 head1 zero,
                name_of_units_cons value1 rest2 head2 zero, List.cons.injEq] at same
              exact same.2

theorem strcmp_escaped_sound (a b : List UInt8) (equal : strcmpEscaped a b = 0) :
    decodedName (withoutFile a) = decodedName b := by
  rw [decoded_name_eq, decoded_name_eq, (strcmp_escaped_zero_iff a b).mp equal]

theorem strcmp_escaped_agrees_iff (a b : List UInt8) :
    (strcmpEscaped a b = 0 ↔ decodedName (withoutFile a) = decodedName b) ↔
      (decodedName (withoutFile a) = decodedName b → SpelledAlike (withoutFile a) b) := by
  have alike : decodedName (withoutFile a) = decodedName b →
      (SpelledAlike (withoutFile a) b ↔ strcmpEscaped a b = 0) := by
    intro same
    rw [decoded_name_eq, decoded_name_eq] at same
    rw [strcmp_escaped_zero_iff]
    exact alike_units_iff _ _ (units_bounds _) (units_bounds _) same
  constructor
  · intro agrees same
    exact (alike same).mpr (agrees.mpr same)
  · intro spelled
    exact ⟨strcmp_escaped_sound a b, fun same => (alike same).mp (spelled same)⟩

/-! ## Encodings of a name -/

/-- A byte and one of the ways to write it in a URI. -/
inductive Spells : UInt8 → List UInt8 → Prop where
  | raw (byte : UInt8) : Spells byte [byte]
  | escaped (byte high low : UInt8) (upper lower : Nat) (highDigit : hexValue high = some upper)
      (lowDigit : hexValue low = some lower) (value : byte.toNat = 16 * upper + lower) :
      Spells byte [37, high, low]

/-- Any of the bytes are escaped, with digits in any case, and the text decodes to the name. -/
structure PercentEncoding (name text : List UInt8) : Prop where
  pieces : ∃ pieces, List.Forall₂ Spells name pieces ∧ text = pieces.flatten
  decodes : unescapeUri text = name

def UnitOf (byte : UInt8) (value : Int) : Prop := value = signedChar byte ∨ value = byte.toNat

theorem unit_of_char (value : Int) (bounds : -128 ≤ value ∧ value ≤ 255) :
    UnitOf (charOf value) value := by
  have residue := char_of_to_nat value
  unfold UnitOf signedChar
  by_cases negative : value < 0
  · left
    split
    · omega
    · omega
  · right
    omega

theorem char_of_unit (byte : UInt8) (value : Int) (unit : UnitOf byte value) :
    charOf value = byte := by
  cases unit with
  | inl raw =>
      rw [raw]
      exact char_of_signed_char byte
  | inr escaped =>
      rw [escaped]
      exact char_of_nat byte

theorem encoding_units (name text : List UInt8) (decodes : unescapeUri text = name) :
    List.Forall₂ UnitOf name (units text) := by
  rw [← decodes, unescape_uri_eq, List.forall₂_map_left_iff, List.forall₂_same]
  intro value member
  exact unit_of_char value (units_bounds text value member)

theorem units_decode (name : List UInt8) (values : List Int)
    (spelled : List.Forall₂ UnitOf name values) : values.map charOf = name := by
  induction spelled with
  | nil => rfl
  | cons unit rest induction =>
      rw [List.map_cons, induction, char_of_unit _ _ unit]

def hexDigit (value : Nat) : UInt8 :=
  if value < 10 then UInt8.ofNat (48 + value) else UInt8.ofNat (87 + value)

theorem hex_digit_scans : ∀ value < 16,
    hexValue (hexDigit value) = some value ∧ isSpace (hexDigit value) = false ∧
      hexDigit value ≠ 45 ∧ hexDigit value ≠ 43 := by
  decide

theorem scan_hex_digits (upper lower : Nat) (small1 : upper < 16) (small2 : lower < 16)
    (rest : List UInt8) :
    scanHex (hexDigit upper :: hexDigit lower :: rest) = some (16 * upper + lower : Int) := by
  obtain ⟨high, visible, noMinus, noPlus⟩ := hex_digit_scans upper small1
  have low := (hex_digit_scans lower small2).1
  simp [scanHex, visible, noMinus, noPlus, high, low]

/-- Every choice of values for the bytes of a name is what some encoding of it shows. -/
theorem encoding_exists (name : List UInt8) (values : List Int)
    (spelled : List.Forall₂ UnitOf name values) :
    ∃ text, PercentEncoding name text ∧ units text = values := by
  have built : ∃ text, (∃ pieces, List.Forall₂ Spells name pieces ∧ text = pieces.flatten) ∧
      units text = values := by
    induction spelled with
    | nil => exact ⟨[], ⟨[], List.Forall₂.nil, rfl⟩, rfl⟩
    | @cons byte value name values unit rest induction =>
        obtain ⟨text, ⟨pieces, spells, rfl⟩, shown⟩ := induction
        by_cases raw : value = signedChar byte ∧ byte ≠ 37
        · have single : nextUnit byte pieces.flatten = (value, pieces.flatten) := by
            rw [nextUnit, if_neg fun both => raw.2 both.1, raw.1]
          refine ⟨byte :: pieces.flatten, ⟨[byte] :: pieces, ?_, rfl⟩, ?_⟩
          · exact List.Forall₂.cons (Spells.raw byte) spells
          · rw [units_cons, single, shown]
        · -- An escape stands for the unsigned value, and a percent sign needs one.
          have small := byte.toNat_lt
          have unsigned : value = byte.toNat := by
            cases unit with
            | inr escaped => exact escaped
            | inl signed =>
                have percent : byte = 37 := by
                  by_contra other
                  exact raw ⟨signed, other⟩
                rw [signed, percent]
                rfl
          have high := hex_digit_scans (byte.toNat / 16) (by omega)
          have low := hex_digit_scans (byte.toNat % 16) (by omega)
          have scanned := scan_hex_digits (byte.toNat / 16) (byte.toNat % 16) (by omega) (by omega)
            pieces.flatten
          have escape : nextUnit 37 (hexDigit (byte.toNat / 16) :: hexDigit (byte.toNat % 16) ::
              pieces.flatten) = (value, pieces.flatten) := by
            rw [nextUnit, if_pos ⟨rfl, by simp⟩, scanned]
            dsimp only [List.drop]
            rw [unsigned]
            congr 1
            omega
          refine ⟨37 :: hexDigit (byte.toNat / 16) :: hexDigit (byte.toNat % 16) :: pieces.flatten,
            ⟨[37, hexDigit (byte.toNat / 16), hexDigit (byte.toNat % 16)] :: pieces, ?_, rfl⟩, ?_⟩
          · exact List.Forall₂.cons (Spells.escaped byte _ _ _ _ high.1 low.1 (by omega)) spells
          · rw [units_cons, escape, shown]
  obtain ⟨text, pieces, shown⟩ := built
  refine ⟨text, ⟨pieces, ?_⟩, shown⟩
  rw [unescape_uri_eq, shown, units_decode name values spelled]

/-! ## The request -/

namespace PlayState

variable (server : PlayState)

theorem allow_iff (uri : List UInt8) :
    server.allow uri = true ↔
      ∃ text ∈ server.authorised, units (withoutFile text) = units uri := by
  have compared : server.allow uri = true ↔ ∃ text ∈ server.authorised, strcmpEscaped text uri = 0 := by
    unfold allow authorised
    cases server.subtitle with
    | none => simp
    | some subtitle => simp [or_assoc]
  rw [compared]
  apply exists_congr
  intro text
  rw [strcmp_escaped_zero_iff]

def Serves : Prop :=
  server.remoteHttpFiles = true ∧ server.fileName ≠ [] ∧ server.playingFile = true

theorem streams_iff (uri name : List UInt8) :
    server.handleControlHttp uri = .streams name ↔
      server.Serves ∧ server.allow uri = true ∧ decodedName uri = name := by
  unfold handleControlHttp Serves
  by_cases enabled : server.remoteHttpFiles = false
  · simp [enabled]
  · rw [if_neg enabled]
    have remote : server.remoteHttpFiles = true := Bool.not_eq_false _ ▸ enabled
    by_cases playing : server.fileName ≠ [] ∧ server.playingFile = true
    · rw [if_pos playing]
      by_cases allowed : server.allow uri = true
      · simp [allowed, remote, playing]
      · simp [allowed]
    · rw [if_neg playing]
      constructor
      · intro absurd
        cases absurd
      · intro ⟨serves, _⟩
        exact absurd serves.2 playing

theorem streams_authorised (uri name : List UInt8)
    (streams : server.handleControlHttp uri = .streams name) :
    ∃ text ∈ server.authorised, decodedName (withoutFile text) = name := by
  obtain ⟨_, allowed, opened⟩ := (server.streams_iff uri name).mp streams
  obtain ⟨text, member, same⟩ := (server.allow_iff uri).mp allowed
  refine ⟨text, member, ?_⟩
  rw [decoded_name_eq, same, ← decoded_name_eq, opened]

theorem decoded_name_visible (uri : List UInt8) :
    (decodedName uri).takeWhile (notByte 0) = decodedName uri := by
  rw [decodedName, List.takeWhile_takeWhile]
  congr 1
  funext byte
  simp

/-- A file that is served is served under every encoding of its name exactly when every way
to spell its bytes is how one of the authorised texts spells them. -/
theorem encodings_stream_iff (uri name : List UInt8)
    (streams : server.handleControlHttp uri = .streams name) :
    (∀ text, PercentEncoding name text → server.handleControlHttp text = .streams name) ↔
      ∀ values, List.Forall₂ UnitOf name values →
        ∃ text ∈ server.authorised, units (withoutFile text) = values := by
  obtain ⟨serves, _, opened⟩ := (server.streams_iff uri name).mp streams
  constructor
  · intro allowed values spelled
    obtain ⟨text, encoding, shown⟩ := encoding_exists name values spelled
    have request := (server.streams_iff text name).mp (allowed text encoding)
    rw [← shown]
    exact (server.allow_iff text).mp request.2.1
  · intro authorised text encoding
    apply (server.streams_iff text name).mpr
    refine ⟨serves, ?_, ?_⟩
    · exact (server.allow_iff text).mpr
        (authorised (units text) (encoding_units name text encoding.decodes))
    · rw [decodedName, encoding.decodes, ← opened, decoded_name_visible]

end PlayState

theorem authorisation_agrees_iff (a b : List UInt8) (server : PlayState) (uri name : List UInt8) :
    ((strcmpEscaped a b = 0 ↔ decodedName (withoutFile a) = decodedName b) ↔
      (decodedName (withoutFile a) = decodedName b → SpelledAlike (withoutFile a) b)) ∧
    (server.handleControlHttp uri = .streams name →
      (∃ text ∈ server.authorised, decodedName (withoutFile text) = name) ∧
      ((∀ text, PercentEncoding name text → server.handleControlHttp text = .streams name) ↔
        ∀ values, List.Forall₂ UnitOf name values →
          ∃ text ∈ server.authorised, units (withoutFile text) = values)) := by
  constructor
  · exact strcmp_escaped_agrees_iff a b
  · intro streams
    exact ⟨server.streams_authorised uri name streams,
      server.encodings_stream_iff uri name streams⟩

def accentedServer : PlayState where
  remoteHttpFiles := true
  fileName := ascii "file:/m/".toList ++ [195, 169]
  playingFile := true
  audioVisImageMrl := []

theorem authorisation_agrees_raw_name :
    ∃ text ∈ accentedServer.authorised,
      decodedName (withoutFile text) = ascii "/m/".toList ++ [195, 169] :=
  ((authorisation_agrees_iff [] [] accentedServer (ascii "/m/".toList ++ [195, 169]) _).2
    (by decide)).1

/-- The file is opened when its name is sent as it is, and refused when the same name is
sent with escapes; so is a name with something behind an encoded NUL. -/
theorem escaped_name_refused :
    strcmpEscaped [195, 169] (ascii "%C3%A9".toList) ≠ 0 ∧
      decodedName (withoutFile [195, 169]) = decodedName (ascii "%C3%A9".toList) ∧
      strcmpEscaped (ascii "a".toList) (ascii "a%00".toList) ≠ 0 ∧
      decodedName (withoutFile (ascii "a".toList)) = decodedName (ascii "a%00".toList) ∧
      accentedServer.handleControlHttp (ascii "/m/".toList ++ [195, 169]) =
        .streams (ascii "/m/".toList ++ [195, 169]) ∧
      PercentEncoding (ascii "/m/".toList ++ [195, 169]) (ascii "/m/%C3%A9".toList) ∧
      accentedServer.handleControlHttp (ascii "/m/%C3%A9".toList) = .notFound := by
  refine ⟨by decide, by decide, by decide, by decide, by decide, ⟨?_, by decide⟩, by decide⟩
  refine ⟨[[47], [109], [47], ascii "%C3".toList, ascii "%A9".toList], ?_, by decide⟩
  exact .cons (.raw _) (.cons (.raw _) (.cons (.raw _)
    (.cons (.escaped 195 67 51 12 3 (by decide) (by decide) (by decide))
      (.cons (.escaped 169 65 57 10 9 (by decide) (by decide) (by decide)) .nil))))

end Xineliboutput.Server
