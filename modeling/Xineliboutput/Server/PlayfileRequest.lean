import Xineliboutput.Server.InfoHandler

/-!
# The file an HTTP client may read

`Handle_Control_HTTP` of `frontend_svr.c` for a request of `/PLAYFILE`: the text behind
that word is compared with what is being played by `strcmp_escaped`, and the streamer of
`tools/http.c` opens what `unescape_uri` makes of it. A text is the bytes in front of its
NUL; a `char` is signed.
-/

namespace Xineliboutput.Server

open Xineliboutput.Foundation

set_option autoImplicit false

/-! ## `sscanf` of two hexadecimal digits -/

def hexValue (byte : UInt8) : Option Nat :=
  if 48 ≤ byte.toNat ∧ byte.toNat ≤ 57 then some (byte.toNat - 48)
  else if 65 ≤ byte.toNat ∧ byte.toNat ≤ 70 then some (byte.toNat - 55)
  else if 97 ≤ byte.toNat ∧ byte.toNat ≤ 102 then some (byte.toNat - 87)
  else none

/-- `sscanf(text, "%02x", …)`: white space, then two characters at most, of which the
first may be a sign. The prefix `0x` alone is no number. -/
def scanHex (text : List UInt8) : Option Int :=
  match text.dropWhile isSpace with
  | [] => none
  | byte :: rest =>
      if byte = 45 then (rest.head?.bind hexValue).map fun (value : Nat) => -(value : Int)
      else if byte = 43 then (rest.head?.bind hexValue).map fun (value : Nat) => (value : Int)
      else
        match hexValue byte, rest.head?.bind hexValue with
        | none, _ => none
        | some high, some low => some (16 * high + low)
        | some high, none =>
            if byte = 48 ∧ (rest.head? = some 120 ∨ rest.head? = some 88) then none
            else some high

/-- `int c = *s` -/
def signedChar (byte : UInt8) : Int := if byte.toNat < 128 then byte.toNat else byte.toNat - 256

/-- `(char)c` -/
def charOf (value : Int) : UInt8 := UInt8.ofNat (value % 256).toNat

/-! ## `unescape_uri` -/

def unescapeUri : List UInt8 → List UInt8
  | byte :: first :: second :: rest =>
      if byte = 37 then
        match scanHex (first :: second :: rest) with
        | some value => charOf value :: unescapeUri rest
        | none => byte :: unescapeUri (first :: second :: rest)
      else byte :: unescapeUri (first :: second :: rest)
  | text => text

/-- The bytes of the result that are in front of its first NUL. -/
def decodedName (text : List UInt8) : List UInt8 := (unescapeUri text).takeWhile (notByte 0)

/-! ## `strcmp_escaped` -/

/-- The character a round of the loop compares, and the text behind it. -/
def nextUnit (byte : UInt8) (rest : List UInt8) : Int × List UInt8 :=
  if byte = 37 ∧ 2 ≤ rest.length then
    match scanHex rest with
    | some value => (value, rest.drop 2)
    | none => (signedChar byte, rest)
  else (signedChar byte, rest)

/-- The rounds are limited; as many as the first text has bytes are always enough. -/
def strcmpLoop : Nat → List UInt8 → List UInt8 → Int
  | rounds + 1, byte1 :: rest1, byte2 :: rest2 =>
      let unit1 := nextUnit byte1 rest1
      let unit2 := nextUnit byte2 rest2
      if unit1.1 < unit2.1 then -1
      else if unit2.1 < unit1.1 then 1
      else strcmpLoop rounds unit1.2 unit2.2
  | _, _ :: _, _ => -1
  | _, [], _ :: _ => 1
  | _, [], [] => 0

def fileWord : List UInt8 := ascii "file:".toList

def withoutFile (text : List UInt8) : List UInt8 :=
  if fileWord.isPrefixOf text then text.drop 5 else text

def strcmpEscaped (s1 s2 : List UInt8) : Int :=
  strcmpLoop (withoutFile s1).length (withoutFile s1) s2

/-! ## The request -/

/-- What the handler reads: `xc.remote_http_files`, `m_FileName`, `m_bPlayingFile` and
`xc.audio_vis_image_mrl`. -/
structure PlayState where
  remoteHttpFiles : Bool
  fileName : List UInt8
  playingFile : Bool
  audioVisImageMrl : List UInt8
  deriving DecidableEq

inductive HttpAnswer where
  /-- `HTTP_REPLY_404` -/
  | notFound
  /-- A new `cHttpStreamer`, and the name it opens. -/
  | streams (name : List UInt8)
  deriving DecidableEq

namespace PlayState

variable (server : PlayState)

/-- `m_FileName` up to `#subtitle:`. -/
def file : List UInt8 :=
  match splitOnce (ascii "#subtitle:".toList) server.fileName with
  | some (file, _) => file
  | none => server.fileName

/-- `pos + 10`, unless `pos` is NULL. -/
def subtitle : Option (List UInt8) :=
  (splitOnce (ascii "#subtitle:".toList) server.fileName).map Prod.snd

def allow (uri : List UInt8) : Bool :=
  strcmpEscaped server.file uri == 0 || strcmpEscaped server.audioVisImageMrl uri == 0 ||
    server.subtitle.any fun subtitle => strcmpEscaped subtitle uri == 0

/-- The request for `/PLAYFILE` and the text behind it. -/
def handleControlHttp (uri : List UInt8) : HttpAnswer :=
  if server.remoteHttpFiles = false then .notFound
  else if server.fileName ≠ [] ∧ server.playingFile = true then
    if server.allow uri = true then .streams (decodedName uri) else .notFound
  else .notFound

def authorised : List (List UInt8) :=
  server.file :: server.audioVisImageMrl :: server.subtitle.toList

end PlayState

end Xineliboutput.Server
