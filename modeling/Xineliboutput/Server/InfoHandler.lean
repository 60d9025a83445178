import Xineliboutput.Foundation.BoundedLoop
import Xineliboutput.Foundation.DecimalText

/-!
# Information from the client

`cXinelibThread::InfoHandler` of `frontend.c` on the text behind `INFO `, and the language
codes of `tools/iso639.h`. What it does to the device is a list of calls. Its loops run
for a limited number of rounds; a text whose loop goes on after that has no result.
-/

namespace Xineliboutput.Server

open Xineliboutput.Foundation

set_option autoImplicit false

/-! ## Language codes -/

/-- `ISO639_map`: the codes of ISO 639-2 and ISO 639-1. -/
def iso639Map : List (String × String) :=
  [("???", "??"), ("abk", "ab"), ("aar", "aa"), ("afr", "af"), ("alb", "sq"), ("amh", "am"),
   ("ara", "ar"), ("arm", "hy"), ("ast", "as"), ("aym", "ay"), ("aze", "az"), ("bak", "ba"),
   ("baq", "eu"), ("bel", "be"), ("ben", "bn"), ("bih", "bh"), ("bis", "bi"), ("bre", "br"),
   ("bul", "bg"), ("bur", "my"), ("cat", "ca"), ("chi", "zh"), ("cos", "co"), ("scr", "hr"),
   ("cze", "cs"), ("dan", "da"), ("dut", "nl"), ("dzo", "dz"), ("eng", "en"), ("epo", "eo"),
   ("est", "et"), ("fao", "fo"), ("fij", "fj"), ("fin", "fi"), ("fre", "fr"), ("fry", "fy"),
   ("glg", "gl"), ("geo", "ka"), ("ger", "de"), ("gre", "el"), ("grn", "gn"), ("guj", "gu"),
   ("hau", "ha"), ("heb", "he"), ("heb", "iw"), ("hin", "hi"), ("hun", "hu"), ("ice", "is"),
   ("ind", "id"), ("ina", "ia"), ("iku", "iu"), ("ipk", "ik"), ("gle", "ga"), ("ita", "it"),
   ("jpn", "ja"), ("jav", "jv"), ("kal", "kl"), ("kan", "kn"), ("kas", "ks"), ("kaz", "kk"),
   ("khm", "km"), ("kin", "rw"), ("kir", "ky"), ("kor", "ko"), ("kur", "ku"), ("lao", "lo"),
   ("lat", "la"), ("lav", "lv"), ("lin", "ln"), ("lit", "lt"), ("mac", "mk"), ("mlg", "mg"),
   ("may", "ms"), ("mlt", "ml"), ("mao", "mi"), ("mar", "mr"), ("mol", "mo"), ("mon", "mn"),
   ("nau", "na"), ("nep", "ne"), ("nor", "no"), ("oci", "oc"), ("ori", "or"), ("orm", "om"),
   ("per", "fa"), ("pol", "pl"), ("por", "pt"), ("pus", "ps"), ("que", "qu"), ("roh", "rm"),
   ("rum", "ro"), ("run", "rn"), ("rus", "ru"), ("smo", "sm"), ("sag", "sg"), ("san", "sa"),
   ("srp", "sr"), ("scr", "sh"), ("sna", "sn"), ("snd", "sd"), ("sin", "si"), ("slo", "sk"),
   ("slv", "sl"), ("som", "so"), ("sot", "st"), ("spa", "es"), ("sun", "su"), ("swa", "sw"),
   ("ssw", "ss"), ("swe", "sv"), ("tgl", "tl"), ("tgk", "tg"), ("tam", "ta"), ("tat", "tt"),
   ("tel", "te"), ("tha", "th"), ("tib", "bo"), ("tir", "ti"), ("tog", "to"), ("tso", "ts"),
   ("tsn", "tn"), ("tur", "tr"), ("tuk", "tk"), ("twi", "tw"), ("uig", "ug"), ("ukr", "uk"),
   ("urd", "ur"), ("uzb", "uz"), ("vie", "vi"), ("vol", "vo"), ("wel", "cy"), ("wol", "wo"),
   ("xho", "xh"), ("yid", "yi"), ("yor", "yo"), ("zha", "za"), ("zul", "zu")]

/-- `none` is NULL. -/
def iso639Of1 (lang : List UInt8) : Option (List UInt8) :=
  if lang = [] then none
  else if lang.length = 2 then
    match iso639Map.find? fun codes => ascii codes.2.toList == lang with
    | some codes => some (ascii codes.1.toList)
    | none => some lang
  else some lang

/-! ## Calls to the device -/

abbrev ttXSubtitleNone : Int := -2
abbrev ttXSubtitleAuto : Int := -1

/-- `eTrackType` of VDR. -/
abbrev ttNone : Int := 0
abbrev ttDolby : Int := 33
abbrev ttSubtitle : Int := 49
abbrev ttSubtitleFirst : Int := 49

inductive MetaInfo where
  | title
  | tracknumber
  | album
  | artist
  | dvdButtons
  | dvdTitleNo
  deriving DecidableEq

inductive DeviceCall where
  | clrAvailableTracks
  | setAvailableTrack (type index id : Int) (language : List UInt8)
  | setCurrentAudioTrack (type : Int)
  | ensureSubtitleTrack
  | setCurrentSubtitleTrack (type : Int) (manual : Bool)
  | setMetaInfo (kind : MetaInfo) (value : List UInt8)
  | setOsdAuto (width height : Int)
  deriving DecidableEq

/-! ## Scanning -/

def atoi (text : List UInt8) : Int := (scanInteger text).elim 0 fun (value, _) => storeInt value

def notByte (byte other : UInt8) : Bool := other != byte

/-- `while(*map == ' ') map++` -/
def skipBlanks (map : List UInt8) : List UInt8 := map.dropWhile fun byte => byte == 32

def takeStar (map : List UInt8) : Bool × List UInt8 :=
  match map with
  | [] => (false, [])
  | byte :: rest => if byte = 42 then (true, rest) else (false, byte :: rest)

structure TrackEntry where
  id : Int
  lang : List UInt8
  rest : List UInt8

/-- An entry: a number, what stands behind the next colon up to a blank, and the text
behind that blank. -/
def takeEntry (map : List UInt8) : TrackEntry :=
  let behind := (map.dropWhile (notByte 58)).drop 1
  { id := atoi map
    lang := behind.takeWhile (notByte 32)
    rest := (behind.dropWhile (notByte 32)).drop 1 }

/-- The text in front of and behind the first occurrence of a word. -/
def splitOnce (word : List UInt8) : List UInt8 → Option (List UInt8 × List UInt8)
  | [] => if word = [] then some ([], []) else none
  | byte :: rest =>
      if word.isPrefixOf (byte :: rest) then some ([], (byte :: rest).drop word.length)
      else (splitOnce word rest).map fun (before, behind) => (byte :: before, behind)

/-- `%03d` -/
def threeDigits (value : Int) : List UInt8 :=
  let digits := decimal value.natAbs
  if value < 0 then 45 :: (List.replicate (2 - digits.length) 48 ++ digits)
  else List.replicate (3 - digits.length) 48 ++ digits

def trackLanguage (id : Int) (lang : List UInt8) : List UInt8 :=
  (iso639Of1 lang).getD (threeDigits (id + 1))

/-! ## Track maps -/

structure TrackLoop where
  map : List UInt8
  currentTrack : Int
  calls : List DeviceCall

/-- One round of the loop of `TRACKMAP SPU`. -/
def spuRound (loop : TrackLoop) : TrackLoop :=
  let (current, map) := takeStar (skipBlanks loop.map)
  if current = true ∧ map.head? = some 45 then
    { loop with map := map.dropWhile (notByte 32), currentTrack := atoi map }
  else if map.head?.any isDigit then
    let entry := takeEntry map
    { map := entry.rest
      currentTrack := if current then entry.id else loop.currentTrack
      calls := loop.calls ++
        [.setAvailableTrack ttSubtitle entry.id (entry.id + 1) (trackLanguage entry.id entry.lang)] }
  else { loop with map := map }

def selectSubtitle (currentTrack : Int) : DeviceCall :=
  if currentTrack = ttXSubtitleAuto then .ensureSubtitleTrack
  else if currentTrack = ttXSubtitleNone then .setCurrentSubtitleTrack ttNone true
  else .setCurrentSubtitleTrack (currentTrack + ttSubtitleFirst) true

/-- One round of the loop of `TRACKMAP AUDIO`. -/
def audioRound (loop : TrackLoop) : TrackLoop :=
  let (current, map) := takeStar (skipBlanks loop.map)
  let entry := takeEntry map
  { loop with
    map := entry.rest
    calls := loop.calls ++
      .setAvailableTrack ttDolby entry.id (ttDolby + entry.id) (trackLanguage entry.id entry.lang) ::
        if current then [.setCurrentAudioTrack (ttDolby + entry.id)] else [] }

def TrackLoop.goesOn (loop : TrackLoop) : Bool := !loop.map.isEmpty

/-! ## Meta information -/

structure MetaLoop where
  map : List UInt8
  left : Bool
  calls : List DeviceCall

def metaCalls (name value : List UInt8) : List DeviceCall :=
  if name = ascii "title".toList then [.setMetaInfo .title value]
  else if name = ascii "tracknumber".toList then [.setMetaInfo .tracknumber value]
  else if name = ascii "album".toList then [.setMetaInfo .album value]
  else if name = ascii "artist".toList then [.setMetaInfo .artist value]
  else []

/-- One round of the loop of `METAINFO`. -/
def metaRound (loop : MetaLoop) : MetaLoop :=
  let map := skipBlanks loop.map
  match splitOnce (ascii "=@".toList) map with
  | none => { loop with map := map, left := true }
  | some (name, next) =>
      match splitOnce (ascii "@".toList) next with
      | none => { loop with map := map, left := true }
      | some (value, rest) => { loop with map := rest, calls := loop.calls ++ metaCalls name value }

def MetaLoop.goesOn (loop : MetaLoop) : Bool := !loop.map.isEmpty && !loop.left

/-! ## The handler -/

def trackmapSpuWord : List UInt8 := ascii "TRACKMAP SPU".toList

def trackmapAudioWord : List UInt8 := ascii "TRACKMAP AUDIO".toList

def metainfoWord : List UInt8 := ascii "METAINFO".toList

def plainInfo (info map : List UInt8) : List DeviceCall :=
  if (ascii "DVDBUTTONS ".toList).isPrefixOf info then
    [.setMetaInfo .dvdButtons (skipBlanks (map.drop 11))]
  else if (ascii "TITLE ".toList).isPrefixOf info then
    [.setMetaInfo .title (skipBlanks (map.drop 6))]
  else if (ascii "DVDTITLE ".toList).isPrefixOf info then
    let map := skipBlanks (map.drop 9)
    .setMetaInfo .dvdTitleNo map ::
      if map.head? = some 48 then [.setCurrentSubtitleTrack ttSubtitleFirst false] else []
  else if (ascii "WINDOW ".toList).isPrefixOf info then
    match scanInteger (skipBlanks (map.drop 7)) with
    | none => []
    | some (width, rest) =>
        match (scanLiteral 120 rest).bind scanInteger with
        | none => []
        | some (height, _) => [.setOsdAuto (storeInt width) (storeInt height)]
  else []

def infoHandler (limit : Nat) (info : List UInt8) : Option (List DeviceCall) :=
  let map := info.takeWhile (notByte 13)
  if trackmapSpuWord.isPrefixOf info then
    (whileWithin TrackLoop.goesOn spuRound limit ⟨map.drop 12, ttXSubtitleAuto, []⟩).map
      fun loop => loop.calls ++ [selectSubtitle loop.currentTrack]
  else if trackmapAudioWord.isPrefixOf info then
    (whileWithin TrackLoop.goesOn audioRound limit
      ⟨map.drop 14, ttXSubtitleAuto, [.clrAvailableTracks]⟩).map TrackLoop.calls
  else if metainfoWord.isPrefixOf info then
    (whileWithin MetaLoop.goesOn metaRound limit ⟨map.drop 8, false, []⟩).map MetaLoop.calls
  else some (plainInfo info map)

end Xineliboutput.Server
