import Xineliboutput.Ts.ParsePmt
import Xineliboutput.Ts.Ts2es

/-!
# What the PES header parser touches

The first fragment of a PES packet has to be long enough for the bytes that are
looked at before its size is, and for the substream header that is stripped
without a look at the size.
-/

namespace Xineliboutput.Ts

open Xineliboutput.Foundation

set_option autoImplicit false

/-! ## What a first fragment needs -/

/-- The bytes behind the PES header, for the substream header of the stream type. -/
def SubstreamFits (streamType : Nat) (pesPid : UInt8) (rest : List UInt8) : Prop :=
  if streamType = hdmvAudio80Pcm then 4 ≤ rest.length
  else if pesPid ≠ privateStream1 then True
  else if isRawAudio streamType then True
  else ∃ first, rest[0]? = some first ∧
    (first = 0x0b → 2 ≤ rest.length) ∧
    (streamType = iso13818PesPrivate → first &&& 0xf0 = 0x80 → 4 ≤ rest.length) ∧
    (streamType = streamDvbSub → first = 0x20 → 2 ≤ rest.length)

structure HeaderFits (streamType : Nat) (payload : List UInt8) : Prop where
  startCode : ¬payload <+: [0, 0, 1]
  header : [0, 0, 1] <+: payload → 9 ≤ payload.length
  substream : [0, 0, 1] <+: payload → ∀ pesPid headerDataLength, payload[3]? = some pesPid →
    payload[8]? = some headerDataLength → 9 + headerDataLength.toNat ≤ payload.length →
      SubstreamFits streamType pesPid (payload.drop (9 + headerDataLength.toNat))

/-! ## The substream header -/

section Substream

variable {payload : List UInt8}

theorem pcm_offset_inside {content size : Nat} (filled : content + size = payload.length)
    (rounds : Nat) {pcmOffset : Nat} (inside : pcmOffset ≤ size) :
    ∃ found, (pcmOffsetFrom content size rounds pcmOffset).run (Memory.ofList payload) =
      some found ∧ found ≤ size := by
  induction rounds generalizing pcmOffset with
  | zero => exact ⟨pcmOffset, rfl, inside⟩
  | succ rounds ih =>
      rw [pcmOffsetFrom, Scan.run_ite]
      by_cases more : pcmOffset < size - 1
      · have onward := ih (by omega : pcmOffset + 1 ≤ size)
        obtain ⟨first, firstRead⟩ := Option.isSome_iff_exists.mp
          ((Memory.of_list_extent payload (content + pcmOffset)).mpr (by omega))
        obtain ⟨second, secondRead⟩ := Option.isSome_iff_exists.mp
          ((Memory.of_list_extent payload (content + pcmOffset + 1)).mpr (by omega))
        rw [if_pos more]
        simp only [Scan.run_bind, Scan.run_fetch, firstRead, secondRead, Option.bind_some,
          Scan.run_ite]
        split_ifs
        · exact ⟨pcmOffset + 2, rfl, by omega⟩
        · exact onward
        · exact onward
      · rw [if_neg more]
        exact ⟨pcmOffset, rfl, inside⟩

theorem lpcm_header_iff {pesPid : UInt8} {content size pesLen : Nat} :
    (∃ sub, (parseSubstream hdmvAudio80Pcm pesPid content size pesLen).run
        (Memory.ofList payload) = some sub ∧ content + sub.strip ≤ payload.length) ↔
      content + 4 ≤ payload.length := by
  have extent := Memory.of_list_extent payload
  unfold parseSubstream
  rw [if_pos rfl]
  constructor
  · rintro ⟨sub, ran, -⟩
    simp only [Scan.run_bind, Scan.run_fetch, Option.bind_eq_some_iff] at ran
    obtain ⟨_, _, _, _, _, _, _, last, _⟩ := ran
    have inside := (extent (content + 3)).mp (by rw [last]; rfl)
    omega
  · intro long
    obtain ⟨first, firstRead⟩ := Option.isSome_iff_exists.mp ((extent content).mpr (by omega))
    obtain ⟨second, secondRead⟩ :=
      Option.isSome_iff_exists.mp ((extent (content + 1)).mpr (by omega))
    obtain ⟨third, thirdRead⟩ :=
      Option.isSome_iff_exists.mp ((extent (content + 2)).mpr (by omega))
    obtain ⟨fourth, fourthRead⟩ :=
      Option.isSome_iff_exists.mp ((extent (content + 3)).mpr (by omega))
    simp only [Scan.run_bind, Scan.run_fetch, firstRead, secondRead, thirdRead, fourthRead,
      Option.bind_some, Scan.run_pure]
    exact ⟨_, rfl, long⟩

theorem syncword_iff {content : Nat} {first : UInt8}
    (found : Memory.ofList payload content = some first) :
    ((ac3Syncword content).run (Memory.ofList payload)).isSome = true ↔
      (first = 0x0b → content + 2 ≤ payload.length) := by
  unfold ac3Syncword
  rw [Scan.run_bind, Scan.run_fetch, found, Option.bind_some, Scan.run_ite]
  by_cases sync : first = 0x0b
  · rw [if_pos sync, forall_prop_of_true sync, Scan.run_bind, Scan.run_fetch]
    have extent := Memory.of_list_extent payload (content + 1)
    cases second : Memory.ofList payload (content + 1) <;> rw [second] at extent <;>
      simp at extent ⊢ <;> omega
  · rw [if_neg sync, forall_prop_of_false sync]
    simp

theorem syncword_first {content : Nat} {first : UInt8}
    (found : Memory.ofList payload content = some first)
    (ran : (ac3Syncword content).run (Memory.ofList payload) = some true) : first = 0x0b := by
  unfold ac3Syncword at ran
  rw [Scan.run_bind, Scan.run_fetch, found, Option.bind_some, Scan.run_ite] at ran
  split at ran <;> rename_i sync
  · exact sync
  · cases ran

theorem private_audio_iff {content : Nat} {first : UInt8}
    (found : Memory.ofList payload content = some first) :
    (∃ sub, (parsePrivateAudio content (payload.length - content)).run (Memory.ofList payload) =
        some sub ∧ content + sub.strip ≤ payload.length) ↔
      (first &&& 0xf0 = 0x80 → content + 4 ≤ payload.length) := by
  have inside := (Memory.of_list_extent payload content).mp (by rw [found]; rfl)
  unfold parsePrivateAudio
  rw [Scan.run_bind, Scan.run_fetch, found, Option.bind_some, Scan.run_ite]
  by_cases ac3 : first &&& 0xf0 = 0x80
  · rw [if_pos ac3, forall_prop_of_true ac3]
    constructor
    · rintro ⟨sub, ran, stripped⟩
      cases ran
      exact stripped
    · intro long
      exact ⟨_, rfl, long⟩
  · rw [if_neg ac3, forall_prop_of_false ac3, Scan.run_ite]
    apply iff_of_true ?_ trivial
    split_ifs
    · have filled : content + (payload.length - content) = payload.length := by omega
      obtain ⟨pcmOffset, ran, stripped⟩ := pcm_offset_inside filled (payload.length - content)
        (by omega : 1 ≤ payload.length - content)
      rw [Scan.run_bind, ran, Option.bind_some]
      exact ⟨_, rfl, by simp only; omega⟩
    · exact ⟨.plain, rfl, by simp only [Substream.plain]; omega⟩

theorem dvb_spu_iff {content pesLen : Nat} {first : UInt8}
    (found : Memory.ofList payload content = some first) :
    (∃ sub, (parseDvbSpu content pesLen).run (Memory.ofList payload) = some sub ∧
        content + sub.strip ≤ payload.length) ↔
      (first = 0x20 → content + 2 ≤ payload.length) := by
  have inside := (Memory.of_list_extent payload content).mp (by rw [found]; rfl)
  unfold parseDvbSpu
  rw [Scan.run_bind, Scan.run_fetch, found, Option.bind_some, Scan.run_ite]
  by_cases subtitle : first = 0x20
  · rw [if_pos subtitle, forall_prop_of_true subtitle, Scan.run_bind, Scan.run_fetch]
    have extent := Memory.of_list_extent payload (content + 1)
    constructor
    · rintro ⟨sub, ran, -⟩
      obtain ⟨second, secondRead, -⟩ := Option.bind_eq_some_iff.mp ran
      have long := extent.mp (by rw [secondRead]; rfl)
      omega
    · intro long
      obtain ⟨second, secondRead⟩ := Option.isSome_iff_exists.mp (extent.mpr (by omega))
      rw [secondRead, Option.bind_some]
      exact ⟨_, rfl, by simp only; omega⟩
  · rw [if_neg subtitle, forall_prop_of_false subtitle]
    exact iff_of_true ⟨_, rfl, by simp only; omega⟩ trivial

/-- The substream header is parsed and stripped inside the fragment exactly if the
bytes behind the PES header are enough for it. -/
theorem substream_inside_iff (streamType : Nat) (pesPid : UInt8) (pesLen : Nat) {content : Nat}
    (headed : content ≤ payload.length) :
    (∃ sub, (parseSubstream streamType pesPid content (payload.length - content) pesLen).run
        (Memory.ofList payload) = some sub ∧ content + sub.strip ≤ payload.length) ↔
      SubstreamFits streamType pesPid (payload.drop content) := by
  have rest : ∀ count, count ≤ (payload.drop content).length ↔ content + count ≤ payload.length := by
    intro count
    rw [List.length_drop]
    omega
  unfold SubstreamFits
  by_cases lpcm : streamType = hdmvAudio80Pcm
  · rw [if_pos lpcm, rest, lpcm]
    exact lpcm_header_iff
  unfold parseSubstream
  rw [if_neg lpcm, if_neg lpcm]
  by_cases other : pesPid ≠ privateStream1
  · rw [if_pos other, if_pos other]
    exact iff_of_true ⟨.plain, rfl, headed⟩ trivial
  rw [if_neg other, if_neg other]
  by_cases raw : isRawAudio streamType = true
  · rw [if_pos raw, if_pos raw]
    exact iff_of_true ⟨.plain, rfl, headed⟩ trivial
  rw [if_neg raw, if_neg raw, List.getElem?_drop, Nat.add_zero, Scan.run_bind]
  simp only [rest]
  cases found : Memory.ofList payload content with
  | none =>
      have lost : payload[content]? = none := found
      simp [ac3Syncword, found, lost]
  | some first =>
      have kept : payload[content]? = some first := found
      have syncword := syncword_iff found
      simp only [kept, Option.some.injEq, exists_eq_left']
      cases ran : (ac3Syncword content).run (Memory.ofList payload) with
      | none =>
          rw [ran] at syncword
          have short := mt syncword.mpr (by simp)
          simp [short]
      | some sync =>
          rw [ran] at syncword
          rw [Option.bind_some, Scan.run_ite, and_iff_right (syncword.mp rfl)]
          cases sync with
          | true =>
              have first_eq := syncword_first found ran
              rw [if_pos rfl, first_eq]
              refine iff_of_true ⟨.plain, rfl, headed⟩ ⟨fun _ ac3 => ?_, fun _ subtitle => ?_⟩
              · exact absurd ac3 (by decide)
              · exact absurd subtitle (by decide)
          | false =>
              rw [if_neg Bool.false_ne_true, Scan.run_ite]
              by_cases audio : streamType = iso13818PesPrivate
              · have notSubtitle : ¬streamType = streamDvbSub := by rw [audio]; decide
                rw [if_pos audio, private_audio_iff found, forall_prop_of_true audio,
                  forall_prop_of_false notSubtitle, and_true]
              rw [if_neg audio, Scan.run_ite, forall_prop_of_false audio, true_and]
              by_cases subtitle : streamType = streamDvbSub
              · rw [if_pos subtitle, dvb_spu_iff found, forall_prop_of_true subtitle]
              · rw [if_neg subtitle, forall_prop_of_false subtitle]
                exact iff_of_true ⟨.plain, rfl, headed⟩ trivial

end Substream

/-! ## The whole header -/

section Header

variable {payload : List UInt8}

theorem start_code_found (start : [0, 0, 1] <+: payload) :
    dataIsPes.run (Memory.ofList payload) = some true := by
  obtain ⟨rest, rfl⟩ := start
  rfl

theorem start_code_cut (cut : payload <+: [0, 0, 1]) (short : payload ≠ [0, 0, 1]) :
    dataIsPes.run (Memory.ofList payload) = none := by
  rcases payload with _ | ⟨a, _ | ⟨b, _ | ⟨c, rest⟩⟩⟩
  · rfl
  · obtain rfl : a = 0 := by simpa using cut
    rfl
  · obtain ⟨rfl, rfl⟩ : a = 0 ∧ b = 0 := by simpa using cut
    rfl
  · obtain ⟨rfl, rfl, rfl, rfl⟩ : a = 0 ∧ b = 0 ∧ c = 1 ∧ rest = [] := by simpa using cut
    exact absurd rfl short

theorem start_code_missing (missing : ¬[0, 0, 1] <+: payload) (whole : ¬payload <+: [0, 0, 1]) :
    dataIsPes.run (Memory.ofList payload) = some false := by
  rcases payload with _ | ⟨a, _ | ⟨b, _ | ⟨c, rest⟩⟩⟩
  · exact absurd List.nil_prefix whole
  · have first : a ≠ 0 := by simpa using whole
    simp [dataIsPes, Memory.ofList, first]
  · have pair : a = 0 → b ≠ 0 := by simpa using whole
    by_cases first : a = 0
    · simp [dataIsPes, Memory.ofList, first, pair first]
    · simp [dataIsPes, Memory.ofList, first]
  · have triple : a = 0 → b = 0 → c ≠ 1 := by
      intro first second third
      apply missing
      rw [first, second, third]
      exact ⟨rest, rfl⟩
    by_cases first : a = 0
    · by_cases second : b = 0
      · simp [dataIsPes, Memory.ofList, first, second, triple first second]
      · simp [dataIsPes, Memory.ofList, first, second]
    · simp [dataIsPes, Memory.ofList, first]

theorem timestamp_ends {buf before bound : Nat} (flag : UInt8) (header : 9 ≤ bound)
    (field : buf + 4 ≤ before) :
    Scan.EndsWithin bound (timestampAt buf before flag bound) := by
  apply Scan.EndsWithin.bind (.fetch (by omega))
  intro streamId
  apply Scan.EndsWithin.ite ?_ (fun _ => .pure _)
  intro stream
  apply Scan.EndsWithin.bind (.fetch (by omega))
  intro marker
  apply Scan.EndsWithin.ite (fun _ => .pure _)
  intro mpeg2
  apply Scan.EndsWithin.ite (fun _ => .pure _)
  intro unscrambled
  apply Scan.EndsWithin.ite ?_ (fun _ => .pure _)
  intro long
  apply Scan.EndsWithin.bind (.fetch (by omega))
  intro flags
  apply Scan.EndsWithin.ite ?_ (fun _ => .pure _)
  intro flagged
  apply Scan.EndsWithin.bind (.fetch (by omega))
  intro first
  apply Scan.EndsWithin.bind (.fetch (by omega))
  intro second
  apply Scan.EndsWithin.bind (.fetch (by omega))
  intro third
  apply Scan.EndsWithin.bind (.fetch (by omega))
  intro fourth
  apply Scan.EndsWithin.bind (.fetch (by omega))
  intro fifth
  exact .pure _

/-- The header is parsed inside the fragment, and what it strips lies in it. -/
def HeaderInside (streamType : Nat) (video : Bool) (payload : List UInt8) : Prop :=
  ∃ parsed, (parsePesHeader streamType video payload.length).run (Memory.ofList payload) =
    some parsed ∧ ∀ fields, parsed = some fields → fields.strip ≤ payload.length

/-- A header that is complete in the fragment is parsed up to its substream header. -/
theorem complete_header_run (streamType : Nat) (video : Bool) {pesPid headerDataLength : UInt8}
    (start : [0, 0, 1] <+: payload) (identified : Memory.ofList payload 3 = some pesPid)
    (sized : Memory.ofList payload 8 = some headerDataLength)
    (complete : 9 + headerDataLength.toNat ≤ payload.length) :
    ∃ packetLength found decoderInfo0,
      (fetchWord 4).run (Memory.ofList payload) = some packetLength ∧
      (pesGetPts payload.length).run (Memory.ofList payload) = some found ∧
      (parsePesHeader streamType video payload.length).run (Memory.ofList payload) =
        ((parseSubstream streamType pesPid (9 + headerDataLength.toNat)
          (payload.length - (9 + headerDataLength.toNat))
          (if 9 + headerDataLength.toNat + 6 < packetLength then packetLength + 6 else 0)).run
            (Memory.ofList payload)).map fun substream =>
          some ⟨if 9 + headerDataLength.toNat + 6 < packetLength then packetLength + 6 else 0,
            if found < 0 then 0 else found, decoderInfo0, substream,
            9 + headerDataLength.toNat + substream.strip⟩ := by
  have reaches := fun position => (Memory.of_list_extent payload position).mpr
  have header : 9 ≤ payload.length := by omega
  obtain ⟨packetLength, lengthRead⟩ := Option.isSome_iff_exists.mp
    (fetch_word_ends (by omega : 4 + 1 < payload.length) _ reaches)
  obtain ⟨found, ptsRead⟩ := Option.isSome_iff_exists.mp
    (timestamp_ends 0x80 header (by decide : 9 + 4 ≤ 13) _ reaches)
  obtain ⟨dts, dtsRead⟩ := Option.isSome_iff_exists.mp
    (timestamp_ends 0x40 header (by decide : 14 + 4 ≤ 18) _ reaches)
  have inside : ¬(payload.length < 9 ∨ payload.length < 9 + headerDataLength.toNat) := by omega
  unfold parsePesHeader pesHeaderLen pesGetPts pesGetDts
  simp only [Scan.run_bind, Scan.run_fetch, Scan.run_pure, Scan.run_ite,
    start_code_found start, identified, sized, lengthRead, ptsRead, dtsRead, Option.bind_some,
    if_true, if_neg inside]
  by_cases timed : video = true ∧ 0 < if found < 0 then 0 else found
  · simp only [if_pos timed, Option.map_eq_bind]
    exact ⟨packetLength, found, _, rfl, rfl, rfl⟩
  · simp only [if_neg timed, Option.map_eq_bind]
    exact ⟨packetLength, found, _, rfl, rfl, rfl⟩

theorem header_inside_iff (streamType : Nat) (video : Bool) (payload : List UInt8) :
    HeaderInside streamType video payload ↔ HeaderFits streamType payload := by
  unfold HeaderInside
  by_cases start : [0, 0, 1] <+: payload
  · cases sized : Memory.ofList payload 8 with
    | none =>
        have short : ¬9 ≤ payload.length := by
          intro long
          have reached := (Memory.of_list_extent payload 8).mpr (by omega)
          rw [sized] at reached
          cases reached
        refine iff_of_false ?_ fun fits => short (fits.header start)
        rintro ⟨parsed, ran, -⟩
        unfold parsePesHeader pesHeaderLen at ran
        simp [start_code_found start, sized] at ran
    | some headerDataLength =>
        have long := (Memory.of_list_extent payload 8).mp (by rw [sized]; rfl)
        obtain ⟨pesPid, identified⟩ := Option.isSome_iff_exists.mp
          ((Memory.of_list_extent payload 3).mpr (by omega))
        have whole : ¬payload <+: [0, 0, 1] := by
          intro cut
          have shorter := cut.length_le
          simp only [List.length_cons, List.length_nil] at shorter
          omega
        by_cases complete : 9 + headerDataLength.toNat ≤ payload.length
        · obtain ⟨packetLength, found, decoderInfo0, -, -, run⟩ :=
            complete_header_run streamType video start identified sized complete
          have substream := substream_inside_iff streamType pesPid
            (if 9 + headerDataLength.toNat + 6 < packetLength then packetLength + 6 else 0) complete
          rw [run]
          constructor
          · rintro ⟨parsed, ran, inside⟩
            obtain ⟨sub, subRan, rfl⟩ := Option.map_eq_some_iff.mp ran
            refine ⟨whole, fun _ => long, ?_⟩
            intro _ pesPid' headerDataLength' identified' sized' _
            cases identified.symm.trans identified'
            cases sized.symm.trans sized'
            exact substream.mp ⟨sub, subRan, inside _ rfl⟩
          · intro fits
            obtain ⟨sub, subRan, inside⟩ := substream.mpr
              (fits.substream start pesPid headerDataLength identified sized complete)
            refine ⟨_, by rw [subRan]; rfl, ?_⟩
            intro fields same
            cases same
            exact inside
        · refine iff_of_true ⟨none, ?_, fun _ same => nomatch same⟩ ⟨whole, fun _ => long, ?_⟩
          · have cut : payload.length < 9 ∨ payload.length < 9 + headerDataLength.toNat := by omega
            unfold parsePesHeader pesHeaderLen
            simp only [Scan.run_bind, Scan.run_fetch, Scan.run_pure, start_code_found start,
              identified, sized, Option.bind_some, if_true, if_pos cut]
          · intro _ pesPid' headerDataLength' _ sized' complete'
            cases sized.symm.trans sized'
            exact absurd complete' complete
  · by_cases cut : payload <+: [0, 0, 1]
    · have short : payload ≠ [0, 0, 1] := fun same => start (same ▸ List.prefix_refl _)
      refine iff_of_false ?_ fun fits => fits.startCode cut
      rintro ⟨parsed, ran, -⟩
      unfold parsePesHeader at ran
      simp [start_code_cut cut short] at ran
    · refine iff_of_true ⟨none, ?_, fun _ same => nomatch same⟩
        ⟨cut, fun found => absurd found start, fun found => absurd found start⟩
      unfold parsePesHeader
      simp [start_code_missing start cut]

end Header

end Xineliboutput.Ts
