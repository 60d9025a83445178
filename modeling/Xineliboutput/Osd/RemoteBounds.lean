import Xineliboutput.Osd.RedrawRuns
import Xineliboutput.Osd.RemoteReads

/-!
# What remote commands read

For each format the members that have to fit each other, and the bytes that have to be
there. A command stays inside its palette, its data, the decoded elements and the colour
tables if and only if they do.
-/

namespace Xineliboutput.Osd.Remote

open Xineliboutput.Osd.Rle

set_option autoImplicit false

/-! ## Drawing -/

def Convertible (cmd : Command) : Prop :=
  ∀ clut, cmd.palette = some clut → hasFlag yuvClut cmd.flags = true ∨
    intOfUnsigned cmd.colors ≤ 0 ∨ cmd.colors ≤ clut.length

def Copied (cmd : Command) : Prop :=
  ∀ count ∈ cmd.palette.map List.length, 4 * cmd.colors % 2 ^ 32 / 4 ≤ count

/-- Every colour of the overlay is there, and there are as many as the tables hold. -/
def Colored (cmd : Command) : Prop :=
  cmd.colors ≤ ovlPaletteSize ∧ cmd.colors ≤ (cmd.palette.getD []).length

def Flat (extent : Extent) (cmd : Command) : Prop :=
  extent.width = 0 ∨ extent.height = 0 ∨ cmd.w = 0 ∨ cmd.h = 0

/-- The members of a palette image fit each other. An image that is scaled is read by its
lines, and else by its size. -/
structure Drawable (out : Output) (extent video window : Extent) (cmd : Command) : Prop where
  convertible : Convertible cmd
  copied : Copied cmd
  scaled : scales out extent video window cmd = true →
    Flat extent cmd ∨ LinesInside cmd.w cmd.h (cmd.data.getD []) ∧ Colored cmd
  unscaled : scales out extent video window cmd = false →
    Colored cmd ∧ cmd.datalen ≤ 4 * (cmd.data.getD []).length

section Drawing

variable {out : Output} {extent video window : Extent} {cmd : Command}

theorem palette_argb_inside (clut : List Clut) (colors : Nat) :
    Inside (paletteArgbToAyuv clut colors) ↔
      intOfUnsigned colors ≤ 0 ∨ colors ≤ clut.length := by
  rw [paletteArgbToAyuv]
  by_cases none_ : intOfUnsigned colors ≤ 0
  · rw [if_pos none_]
    simp [inside_ok, none_]
  · rw [if_neg none_, inside_check (by decide)]
    simp [inside_ok, none_]

theorem palette_argb_length {clut converted : List Clut} {colors : Nat}
    (done : paletteArgbToAyuv clut colors = .ok converted) : converted.length = clut.length := by
  unfold paletteArgbToAyuv at done
  split at done
  · cases done
    rfl
  · split at done
    · cases done
    · cases done
      simp only [List.length_append, List.length_map, List.length_take, List.length_drop]
      omega

theorem prepare_inside : Inside (prepare cmd) ↔ Convertible cmd := by
  unfold prepare Convertible
  cases cmd.palette with
  | none => simp [inside_ok]
  | some clut =>
      simp only [inside_map, Option.some.injEq, forall_eq']
      cases yuv : hasFlag yuvClut cmd.flags with
      | true => simp [inside_ok]
      | false =>
          rw [if_neg Bool.false_ne_true, palette_argb_inside]
          simp

theorem prepare_done {prepared : Command} (done : prepare cmd = .ok prepared) :
    ∃ palette flags, prepared = { cmd with palette, flags } ∧
      palette.map List.length = cmd.palette.map List.length ∧
      (flags = cmd.flags ∨ flags = cmd.flags ||| yuvClut) := by
  unfold prepare at done
  split at done
  · rename_i absent
    cases done
    exact ⟨cmd.palette, cmd.flags, rfl, rfl, .inl rfl⟩
  · rename_i clut present
    rw [present]
    split at done
    · cases done
      exact ⟨_, _, rfl, rfl, .inr rfl⟩
    · cases converted : paletteArgbToAyuv clut cmd.colors with
      | error fault =>
          rw [converted] at done
          cases done
      | ok found =>
          rw [converted] at done
          cases done
          exact ⟨_, _, rfl, congrArg some (palette_argb_length converted), .inr rfl⟩

theorem palette_length {palette other : Option (List Clut)}
    (same : palette.map List.length = other.map List.length) :
    (palette.getD []).length = (other.getD []).length := by
  cases palette <;> cases other <;> simp_all

theorem scales_prepared (out : Output) (extent video window : Extent)
    (palette : Option (List Clut)) {flags : UInt8}
    (kept : flags = cmd.flags ∨ flags = cmd.flags ||| yuvClut) :
    scales out extent video window { cmd with palette, flags } =
      scales out extent video window cmd := by
  have same : usesUnscaled out extent video flags = usesUnscaled out extent video cmd.flags := by
    rcases kept with rfl | rfl
    · rfl
    · rw [usesUnscaled, usesUnscaled, has_flag_or unscaled yuvClut _ (by decide),
        has_flag_or unscaledLowres yuvClut _ (by decide)]
  rw [scales, scales, same]

theorem copy_palette_inside : Inside (copyPalette cmd) ↔ Copied cmd := by
  unfold copyPalette Copied
  cases cmd.palette with
  | none => simp [inside_ok]
  | some clut =>
      simp only [Option.map_some, Option.mem_some_iff, forall_eq']
      rw [inside_check (by decide)]
      simp [inside_ok]

theorem overlay_inside : Inside (osdcmdToOverlay cmd) ↔ Colored cmd := by
  unfold osdcmdToOverlay Colored
  simp only []
  rw [inside_check (by decide), inside_check (by decide)]
  simp only [inside_ok, and_true, ovlPaletteSize]
  omega

theorem scale_inside (extent video : Extent) (cmd : Command) :
    Inside (osdcmdScale extent video cmd) ↔
      Flat extent cmd ∨ LinesInside cmd.w cmd.h (cmd.data.getD []) := by
  unfold osdcmdScale Flat
  by_cases flat : extent.width = 0 ∨ extent.height = 0 ∨ cmd.w = 0 ∨ cmd.h = 0
  · rw [if_pos flat, inside_error]
    simp only [flat, true_or]
  · rw [if_neg flat]
    simp only [flat, false_or]
    split
    · rename_i outside
      rw [← rle_scale_nearest_reads, outside, inside_error]
      simp
    · rename_i elements scaled
      rw [← rle_scale_nearest_reads, scaled]
      simp [inside_ok]

theorem copy_data_inside :
    Inside (copyData cmd) ↔ cmd.datalen ≤ 4 * (cmd.data.getD []).length := by
  unfold copyData
  simp only []
  rw [inside_check (by decide)]
  simp [inside_ok]

theorem scale_done {scaled : Command} (done : osdcmdScale extent video cmd = .ok scaled) :
    scaled.palette = cmd.palette := by
  unfold osdcmdScale at done
  split at done
  · cases done
  · dsimp only at done
    split at done
    · cases done
    · rw [Except.ok.injEq] at done
      rw [← done]

theorem scale_division (extent video : Extent) (cmd : Command) :
    osdcmdScale extent video cmd = .error .division ↔ Flat extent cmd := by
  unfold osdcmdScale Flat
  by_cases flat : extent.width = 0 ∨ extent.height = 0 ∨ cmd.w = 0 ∨ cmd.h = 0
  · rw [if_pos flat]
    simp only [flat]
  · rw [if_neg flat]
    simp only [flat, iff_false]
    split
    · exact nofun
    · exact nofun

theorem scaled_inside {Value : Type} (next : Command → Overlay → Value) :
    Inside (osdcmdScale extent video cmd >>= fun scaled => osdcmdToOverlay scaled >>=
      fun overlay => (.ok (next scaled overlay) : Except Fault Value)) ↔
      Flat extent cmd ∨ LinesInside cmd.w cmd.h (cmd.data.getD []) ∧ Colored cmd := by
  rw [inside_bind, scale_inside]
  cases resized : osdcmdScale extent video cmd with
  | error fault =>
      have outcome : fault = .division ↔ Flat extent cmd ∨
          LinesInside cmd.w cmd.h (cmd.data.getD []) := by
        rw [← scale_inside extent video, resized, inside_error]
      have flat : fault = .division ↔ Flat extent cmd := by
        rw [← scale_division extent video, resized, Except.error.injEq]
      simp only [reduceCtorEq, false_implies, implies_true, and_true]
      constructor
      · intro inside
        exact .inl (flat.mp (outcome.mpr inside))
      · rintro (zero | ⟨lines, -⟩)
        · exact .inl zero
        · exact .inr lines
  | ok scaled =>
      have sized : ¬ Flat extent cmd := by
        rw [← scale_division extent video, resized]
        exact nofun
      have colored : Colored scaled ↔ Colored cmd := by
        rw [Colored, Colored, scale_colors resized, scale_done resized]
      simp only [Except.ok.injEq, forall_eq', inside_bind, overlay_inside, inside_ok, implies_true,
        and_true, sized, false_or, colored]

theorem prepare_ok (convertible : Convertible cmd) : ∃ prepared, prepare cmd = .ok prepared := by
  cases done : prepare cmd with
  | ok prepared => exact ⟨prepared, rfl⟩
  | error fault =>
      have division : fault = .division := prepare_inside.mpr convertible fault done
      subst division
      unfold prepare paletteArgbToAyuv at done
      split at done
      · cases done
      · split_ifs at done <;> cases done

theorem copy_palette_ok (copied : Copied cmd) : ∃ palette, copyPalette cmd = .ok palette := by
  cases done : copyPalette cmd with
  | ok palette => exact ⟨palette, rfl⟩
  | error fault =>
      have division : fault = .division := copy_palette_inside.mpr copied fault done
      subst division
      unfold copyPalette at done
      split at done
      · cases done
      · dsimp only at done
        split_ifs at done
        cases done

theorem unscaled_inside {Value : Type} (next : Overlay → Option (List RleElem) → Value) :
    Inside (osdcmdToOverlay cmd >>= fun overlay => copyData cmd >>=
      fun data => (.ok (next overlay data) : Except Fault Value)) ↔
      Colored cmd ∧ cmd.datalen ≤ 4 * (cmd.data.getD []).length := by
  simp only [inside_bind, overlay_inside, copy_data_inside, inside_ok, implies_true, and_true]
  constructor
  · rintro ⟨colored, whole⟩
    obtain ⟨overlay, made⟩ := overlay_ok cmd colored.1 colored.2
    exact ⟨colored, whole overlay made⟩
  · rintro ⟨colored, whole⟩
    exact ⟨colored, fun _ _ => whole⟩

/-- The drawing of a palette image stays inside if and only if its members fit each other. -/
theorem draw_inside :
    Inside (draw out extent video window cmd) ↔ Drawable out extent video window cmd := by
  by_cases convertible : Convertible cmd
  · obtain ⟨prepared, done⟩ := prepare_ok convertible
    obtain ⟨palette, flags, rfl, lengths, kept⟩ := prepare_done done
    have copies : Copied { cmd with palette, flags } ↔ Copied cmd := by
      rw [Copied, Copied, lengths]
    have colors : Colored { cmd with palette, flags } ↔ Colored cmd := by
      rw [Colored, Colored, palette_length lengths]
    have scaling := scales_prepared out extent video window palette kept
    rw [draw, done, ok_bind, inside_bind, copy_palette_inside, copies]
    by_cases copied : Copied cmd
    · obtain ⟨copy, copies⟩ := copy_palette_ok (copies.mpr copied)
      simp only [copies, Except.ok.injEq, forall_eq', copied, true_and, scaling]
      cases scaled : scales out extent video window cmd with
      | true =>
          rw [if_pos rfl, scaled_inside, colors]
          exact ⟨fun inside => ⟨convertible, copied, fun _ => inside, fun no => by
            rw [scaled] at no
            cases no⟩, fun drawable => drawable.scaled scaled⟩
      | false =>
          rw [if_neg Bool.false_ne_true, unscaled_inside, colors]
          exact ⟨fun inside => ⟨convertible, copied, fun yes => (by
            rw [scaled] at yes
            cases yes), fun _ => inside⟩, fun drawable => drawable.unscaled scaled⟩
    · constructor
      · intro inside
        exact absurd inside.1 copied
      · intro drawable
        exact absurd drawable.copied copied
  · constructor
    · intro inside
      exact absurd (prepare_inside.mp (inside_bind.mp inside).1) convertible
    · intro drawable
      exact absurd drawable.convertible convertible

end Drawing

/-! ## The formats -/

section Formats

variable (received : ReceivedCommand) (around : Surroundings) (this : OsdManager)

def DrawableOn (osd : OsdData) (cmd : Command) : Prop :=
  Drawable around.out (OsdManager.opened around.manager this osd).extent this.video
    (if queriesWindow around.out cmd.flags then around.window else this.window) cmd

def DrawnInside (cmd : Command) : Prop :=
  ∀ osd, this.osd[received.command.wnd.toNat]? = some osd → DrawableOn around this osd cmd

/-- `OSD_Set_RLE`: all the elements are in the data. -/
structure RleConsistent : Prop where
  absent : received.data = none → DrawnInside received around this
    (rleCommand received none received.command.datalen.toNat)
  negative : ∀ raw, received.data = some raw → 2 ^ 31 ≤ received.command.numRle.toNat →
    DrawnInside received around this
      (rleCommand received none (received.command.numRle.toNat * 4 % 2 ^ 32))
  present : ∀ raw, received.data = some raw → received.command.numRle.toNat < 2 ^ 31 →
    ∃ elements, NetImage received.command.numRle.toNat raw elements ∧
      DrawnInside received around this
        (rleCommand received (some elements) (received.command.numRle.toNat * 4 % 2 ^ 32))

/-- `OSD_Set_HDMV`: as many elements are decoded as are announced. -/
structure HdmvConsistent : Prop where
  whole : ∀ raw, received.data = some raw → HdmvWhole received.command.w.toNat
    received.command.h.toNat received.command.numRle.toNat raw
  drawn : ∀ raw elements n, received.data = some raw →
    rleUncompressHdmv received.command.w.toNat received.command.h.toNat raw
      received.command.numRle.toNat = (elements, .returned n) → 1 ≤ n →
    DrawnInside received around this (rleCommand received (some (elements.take n.toNat))
      (received.command.numRle.toNat * 4 % 2 ^ 32))

/-- `OSD_Set_LUT8`: the data has all pixels. -/
structure Lut8Consistent (osd : OsdData) : Prop where
  absent : received.data = none → DrawableOn around this osd
    (rleCommand received none received.command.datalen.toNat)
  present : ∀ pixels, received.data = some pixels →
    received.command.w.toNat * received.command.h.toNat ≤ pixels.length ∧
      DrawableOn around this osd (rleCommand received
        (some (rleCompress pixels received.command.w.toNat received.command.h.toNat))
        (4 * (rleCompress pixels received.command.w.toNat received.command.h.toNat).length % 2 ^ 32))

/-- `OSD_Set_ARGB` and `OSD_Set_ARGBRLE`: the lines, or the elements, that the extent leaves
of the image are in the data. -/
structure ArgbConsistent (extent : Extent) : Prop where
  plain : received.command.cmd = osdSetArgb →
    LinesCopied (argbStride received extent) received.command.w.toNat
      (argbLines received extent).toNat (received.data.getD [])
  absent : received.command.cmd = osdSetArgbrle → received.data = none →
    received.command.datalen.toNat = 0 ∨ received.command.numRle.toNat = 0 ∨
      argbLines received extent % 2 ^ 32 = 0
  present : ∀ raw, received.command.cmd = osdSetArgbrle → received.data = some raw →
    ArgbWhole received.command.w.toNat (argbLines received extent % 2 ^ 32).toNat
      received.command.numRle.toNat raw

/-- What each format trusts is so. Commands without an image need nothing. -/
structure Consistent : Prop where
  rle : received.command.cmd = osdSetRle → RleConsistent received around this
  hdmv : received.command.cmd = osdSetHdmv → HdmvConsistent received around this
  lut8 : received.command.cmd = osdSetLut8 → ∀ osd,
    this.osd[received.command.wnd.toNat]? = some osd → Lut8Consistent received around this osd
  argb : received.command.cmd = osdSetArgb ∨ received.command.cmd = osdSetArgbrle → ∀ osd,
    this.osd[received.command.wnd.toNat]? = some osd → around.argbSupported = true →
    32 ≤ osd.extent.width → 32 ≤ osd.extent.height →
    ArgbConsistent received (OsdManager.opened around.manager this osd).extent

variable {received around this}

theorem on_window_inside {perform : OsdData → Except Fault OsdManager} :
    Inside (onWindow received this perform) ↔
      ∀ osd, this.osd[received.command.wnd.toNat]? = some osd → Inside (perform osd) := by
  unfold onWindow
  cases this.osd[received.command.wnd.toNat]? with
  | none => simp [inside_ok]
  | some osd => simp

theorem exec_set_rle_inside {osd : OsdData} {cmd : Command} {wnd : Nat} :
    Inside (this.execOsdSetRle around.manager around.out around.window wnd osd cmd) ↔
      DrawableOn around this osd cmd := by
  rw [OsdManager.execOsdSetRle, inside_bind, draw_inside, DrawableOn]
  exact and_iff_left fun _ _ => inside_ok _

theorem exec_rle_inside {cmd : Command} :
    Inside (execRle received around this cmd) ↔ DrawnInside received around this cmd := by
  rw [execRle, on_window_inside, DrawnInside]
  exact forall₂_congr fun _ _ => exec_set_rle_inside

theorem uncompress_osd_net_negative (raw : List UInt8) {numRle : Nat} (bound : numRle < 2 ^ 32)
    (many : 2 ^ 31 ≤ numRle) : uncompressOsdNet raw numRle = .ok none := by
  rw [uncompressOsdNet, if_pos ((finished_negative_iff bound).mpr many)]

theorem uncompress_osd_net_small (raw : List UInt8) {numRle : Nat} (few : numRle < 2 ^ 31) :
    uncompressOsdNet raw numRle = (netElements numRle raw).map some := by
  rw [uncompressOsdNet, int_of_unsigned_small few, if_neg (by omega), Int.toNat_natCast]

theorem rle_inside :
    Inside (convertRle received >>= execRle received around this) ↔
      RleConsistent received around this := by
  unfold convertRle
  cases data : received.data with
  | none =>
      simp only [ok_bind, exec_rle_inside]
      constructor
      · intro drawn
        exact ⟨fun _ => drawn, fun raw present => by simp [data] at present,
          fun raw present => by simp [data] at present⟩
      · intro consistent
        exact consistent.absent data
  | some raw =>
      simp only []
      by_cases many : 2 ^ 31 ≤ received.command.numRle.toNat
      · rw [uncompress_osd_net_negative raw received.command.numRle.toNat_lt many]
        constructor
        · intro inside
          refine ⟨fun absent => by simp [data] at absent, fun _ _ _ => exec_rle_inside.mp inside, ?_⟩
          intro _ _ few
          exact absurd many (Nat.not_le.mpr few)
        · intro consistent
          exact exec_rle_inside.mpr (consistent.negative raw data many)
      · have few : received.command.numRle.toNat < 2 ^ 31 := Nat.lt_of_not_le many
        rw [uncompress_osd_net_small raw few, inside_bind, inside_map, inside_map,
          net_elements_inside]
        constructor
        · rintro ⟨⟨elements, image⟩, drawn⟩
          refine ⟨fun absent => by simp [data] at absent, fun _ _ more => absurd more many, ?_⟩
          intro other present _
          obtain rfl := Option.some.inj (data.symm.trans present)
          have decoded := (net_elements_iff _ _ _).mpr image
          exact ⟨elements, image, exec_rle_inside.mp (drawn _ (by rw [decoded]; rfl))⟩
        · intro consistent
          obtain ⟨elements, image, drawn⟩ := consistent.present raw data few
          refine ⟨⟨elements, image⟩, ?_⟩
          rw [(net_elements_iff _ _ _).mpr image]
          rintro _ ⟨⟩
          exact exec_rle_inside.mpr drawn

theorem convert_hdmv_decoded {raw : List UInt8} (data : received.data = some raw)
    {elements : List RleElem} {outcome : Outcome}
    (result : rleUncompressHdmv received.command.w.toNat received.command.h.toNat raw
      received.command.numRle.toNat = (elements, outcome)) :
    convertHdmv received = match outcome with
      | .overread => .error .data
      | .returned n =>
          if n < 1 then .ok none
          else .ok (some (rleCommand received (some (elements.take n.toNat))
            (received.command.numRle.toNat * 4 % 2 ^ 32))) := by
  unfold convertHdmv
  rw [data]
  simp only [result]
  cases outcome <;> rfl

theorem hdmv_inside :
    Inside (convertHdmv received >>= fun converted => match converted with
      | none => .ok this
      | some cmd => execRle received around this cmd) ↔ HdmvConsistent received around this := by
  cases data : received.data with
  | none =>
      have absent : convertHdmv received = .ok none := by
        rw [convertHdmv, data]
      rw [absent]
      constructor
      · intro _
        exact ⟨fun raw present => by simp [data] at present,
          fun raw _ _ present => by simp [data] at present⟩
      · intro _
        exact inside_ok _
  | some raw =>
      have reads := uncompress_hdmv_reads received.command.w.toNat received.command.h.toNat
        received.command.numRle.toNat raw
      rcases result : rleUncompressHdmv received.command.w.toNat received.command.h.toNat raw
        received.command.numRle.toNat with ⟨elements, outcome⟩
      rw [result] at reads
      rw [convert_hdmv_decoded data result]
      cases outcome with
      | overread =>
          have cut := reads.mp rfl
          constructor
          · intro inside
            exact nomatch inside .data rfl
          · intro consistent
            exact absurd (consistent.whole raw data) cut
      | returned n =>
          have whole : HdmvWhole received.command.w.toNat received.command.h.toNat
              received.command.numRle.toNat raw := by
            by_contra cut
            exact nomatch reads.mpr cut
          have unique : ∀ other, received.data = some other → other = raw :=
            fun other present => (Option.some.inj (data.symm.trans present)).symm
          simp only []
          by_cases failed : n < 1
          · rw [if_pos failed]
            refine ⟨fun _ => ⟨fun other present => unique other present ▸ whole, ?_⟩,
              fun _ => inside_ok _⟩
            intro other found m present same decoded
            rw [unique other present, result] at same
            cases same
            omega
          · rw [if_neg failed]
            simp only [ok_bind, exec_rle_inside]
            constructor
            · intro drawn
              refine ⟨fun other present => unique other present ▸ whole, ?_⟩
              intro other found m present same decoded
              rw [unique other present, result] at same
              cases same
              exact drawn
            · intro consistent
              exact consistent.drawn raw elements n data result (Int.not_lt.mp failed)

theorem lut8_inside {osd : OsdData} {wnd : Nat} :
    Inside (convertLut8 received >>= fun cmd =>
      this.execOsdSetRle around.manager around.out around.window wnd osd cmd) ↔
      Lut8Consistent received around this osd := by
  unfold convertLut8
  cases data : received.data with
  | none =>
      simp only [ok_bind, exec_set_rle_inside]
      constructor
      · intro drawn
        exact ⟨fun _ => drawn, fun raw present => by simp [data] at present⟩
      · intro consistent
        exact consistent.absent data
  | some pixels =>
      simp only []
      rw [inside_bind, inside_check (by decide)]
      constructor
      · rintro ⟨⟨enough, -⟩, drawn⟩
        refine ⟨fun absent => by simp [data] at absent, ?_⟩
        intro other present
        obtain rfl := Option.some.inj (data.symm.trans present)
        rw [if_neg enough] at drawn
        exact ⟨Nat.not_lt.mp enough, exec_set_rle_inside.mp (drawn _ rfl)⟩
      · intro consistent
        obtain ⟨enough, drawn⟩ := consistent.present pixels data
        rw [if_neg (Nat.not_lt.mpr enough)]
        refine ⟨⟨Nat.not_lt.mpr enough, inside_ok _⟩, ?_⟩
        rintro _ ⟨⟩
        exact exec_set_rle_inside.mpr drawn

theorem read_argb_inside {extent : Extent}
    (format : received.command.cmd = osdSetArgb ∨ received.command.cmd = osdSetArgbrle) :
    Inside (readArgb received extent) ↔ ArgbConsistent received extent := by
  unfold readArgb
  simp only []
  by_cases compressed : received.command.cmd = osdSetArgbrle
  · have other : received.command.cmd ≠ osdSetArgb := by
      rw [compressed]
      decide
    have lines : 0 ≤ argbLines received extent % 2 ^ 32 := Int.emod_nonneg _ (by decide)
    rw [if_pos compressed]
    cases data : received.data with
    | none =>
        simp only []
        rw [inside_check (by decide)]
        constructor
        · rintro ⟨none_, -⟩
          refine ⟨fun plain => absurd plain other, fun _ _ => ?_, fun raw _ present => by
            simp [data] at present⟩
          omega
        · intro consistent
          have none_ := consistent.absent compressed data
          exact ⟨by omega, inside_ok _⟩
    | some raw =>
        simp only []
        rw [inside_check (by decide), uncompress_argbrle_reads, not_not]
        constructor
        · rintro ⟨whole, -⟩
          refine ⟨fun plain => absurd plain other, fun _ absent => by simp [data] at absent, ?_⟩
          intro found _ present
          obtain rfl := Option.some.inj (data.symm.trans present)
          exact whole
        · intro consistent
          exact ⟨consistent.present raw compressed data, inside_ok _⟩
  · have plain : received.command.cmd = osdSetArgb := format.resolve_right compressed
    rw [if_neg compressed, copy_lines_inside]
    constructor
    · intro copied
      exact ⟨fun _ => copied, fun same => absurd same compressed, fun _ same => absurd same compressed⟩
    · intro consistent
      exact consistent.plain plain

theorem set_argb_inside {osd : OsdData} {wnd : Nat}
    (format : received.command.cmd = osdSetArgb ∨ received.command.cmd = osdSetArgbrle) :
    Inside (execOsdSetArgb received around this wnd osd) ↔
      (around.argbSupported = true → 32 ≤ osd.extent.width → 32 ≤ osd.extent.height →
        ArgbConsistent received (OsdManager.opened around.manager this osd).extent) := by
  unfold execOsdSetArgb
  by_cases supported : around.argbSupported = false
  · rw [if_pos supported]
    simp [inside_ok, supported]
  · rw [if_neg supported]
    by_cases small : osd.extent.width < 32 ∨ osd.extent.height < 32
    · rw [if_pos small]
      refine ⟨fun _ _ wide high => ?_, fun _ => inside_ok _⟩
      omega
    · rw [if_neg small]
      simp only [inside_map, read_argb_inside format]
      constructor
      · intro consistent _ _ _
        exact consistent
      · intro consistent
        exact consistent (by simpa using supported) (by omega) (by omega)

end Formats

/-! ## What is received -/

section Received

variable {host : Host} {stream rest : List UInt8} {received : ReceivedCommand}

end Received

/-- A command that is received stays inside its palette, its data, the decoded elements and
the colour tables if and only if what its format trusts is so. -/
theorem inside_iff_consistent (received : ReceivedCommand) (around : Surroundings)
    (this : OsdManager) :
    Inside (handleReceived received around this) ↔ Consistent received around this := by
  unfold handleReceived
  simp only []
  by_cases rle : received.command.cmd = osdSetRle
  · rw [if_pos rle, rle_inside]
    refine ⟨fun consistent => ⟨fun _ => consistent, ?_, ?_, ?_⟩, fun consistent => consistent.rle rle⟩
    all_goals
      rw [rle]
      exact fun other => absurd other (by decide)
  rw [if_neg rle]
  by_cases hdmv : received.command.cmd = osdSetHdmv
  · rw [if_pos hdmv]
    refine hdmv_inside.trans
      ⟨fun consistent => ⟨?_, fun _ => consistent, ?_, ?_⟩, fun consistent => consistent.hdmv hdmv⟩
    all_goals
      rw [hdmv]
      exact fun other => absurd other (by decide)
  rw [if_neg hdmv]
  by_cases lut8 : received.command.cmd = osdSetLut8
  · rw [if_pos lut8, on_window_inside]
    simp only [lut8_inside]
    refine ⟨fun consistent => ⟨?_, ?_, fun _ => consistent, ?_⟩, fun consistent => consistent.lut8 lut8⟩
    all_goals
      rw [lut8]
      exact fun other => absurd other (by decide)
  rw [if_neg lut8]
  by_cases argb : received.command.cmd = osdSetArgb ∨ received.command.cmd = osdSetArgbrle
  · rw [if_pos argb, on_window_inside]
    simp only [set_argb_inside argb]
    exact ⟨fun consistent => ⟨fun same => absurd same rle, fun same => absurd same hdmv,
      fun same => absurd same lut8, fun _ => consistent⟩, fun consistent => consistent.argb argb⟩
  rw [if_neg argb]
  -- the other commands carry no image
  have consistent : Consistent received around this := ⟨fun same => absurd same rle,
    fun same => absurd same hdmv, fun same => absurd same lut8, fun same => absurd same argb⟩
  refine ⟨fun _ => consistent, fun _ => ?_⟩
  split
  · exact on_window_inside.mpr fun _ _ => inside_ok _
  split
  · exact on_window_inside.mpr fun _ _ => inside_ok _
  split
  · exact on_window_inside.mpr fun _ _ => inside_ok _
  · exact inside_ok _

/-- An image of one line that announces two elements and carries one. -/
def shortImage : ReceivedCommand where
  command := {
    size := 62
    cmd := osdSetRle
    wnd := 0
    layer := 0
    pts := 0
    delayMs := 0
    x := 0
    y := 0
    w := 2
    h := 1
    datalen := 2
    numRle := 2
    data := ⟨[0, 0, 0, 0, 0, 0, 0, 1], rfl⟩
    colors := 0
    palette := ⟨[0, 0, 0, 0, 0, 0, 0, 0], rfl⟩
    dirtyArea := ⟨0, 0, 0, 0⟩
    flags := 0
    scaling := 0 }
  palette := none
  data := some [2, 1]

theorem short_image_converted : convertRle shortImage = .error .data := by
  have few : (2 : UInt32).toNat < 2 ^ 31 := by decide
  have decoded : uncompressOsdNet [2, 1] (2 : UInt32).toNat = .error .data := by
    rw [uncompress_osd_net_small _ few]
    rfl
  rw [convertRle]
  simp only [shortImage, decoded]
  rfl

set_option maxRecDepth 4000 in
/-- The command is received, and its second element is read behind the data. -/
theorem second_element_read_past_end :
    handleOsdcmd ⟨.little, .eight, 2, by decide⟩ ([62, osdSetRle, 0, 0] ++ List.replicate 16 0 ++
        [0, 2, 0, 1, 0, 0, 0, 2, 0, 0, 0, 2, 1, 0, 0, 0, 0, 0, 0, 0] ++ List.replicate 22 0 ++
        [2, 1]) = some (shortImage, []) ∧
      ¬ Inside (handleReceived shortImage ⟨numbered, ⟨false, false⟩, false, ⟨0, 0⟩⟩
        initOsdManager) := by
  refine ⟨rfl, fun inside => ?_⟩
  have failed : handleReceived shortImage ⟨numbered, ⟨false, false⟩, false, ⟨0, 0⟩⟩
      initOsdManager = .error .data := by
    rw [handleReceived, if_pos (show shortImage.command.cmd = osdSetRle from rfl),
      short_image_converted]
    rfl
  exact absurd (inside .data failed) (by decide)

end Xineliboutput.Osd.Remote
