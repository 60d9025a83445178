import Xineliboutput.Foundation.DecimalText

/-!
# Control messages inside the data stream

`data_stream_parse_control` of `xine_input_vdr.c` cuts the message at 64 bytes and
at its line end and takes two commands itself; every other one goes to
`vdr_plugin_parse_control`.
-/

namespace Xineliboutput.Client

open Xineliboutput.Foundation

set_option autoImplicit false

inductive DataCommand where
  | discard (index : Nat)
  | blank
  | command (text : List UInt8)
  | unreadable
  deriving DecidableEq

def cutAt (byte : UInt8) (text : List UInt8) : List UInt8 := text.takeWhile fun other => other != byte

/-- The text of a message as C reads it from memory that goes on behind it. -/
def messageText (cmd : List UInt8) : List UInt8 := cutAt 10 (cutAt 13 (cutAt 0 (cmd.take 64)))

def lowerCase (byte : UInt8) : UInt8 :=
  if 65 ≤ byte.toNat ∧ byte.toNat ≤ 90 then byte + 32 else byte

/-- `!strncasecmp(text, word, strlen(word))` -/
def startsWith (text word : List UInt8) : Bool :=
  (text.take word.length).map lowerCase == word.map lowerCase

def discardWord : List UInt8 := ascii ['D', 'I', 'S', 'C', 'A', 'R', 'D', ' ']

def blankWord : List UInt8 := ascii ['B', 'L', 'A', 'N', 'K']

def dataStreamParseControl (cmd : List UInt8) : DataCommand :=
  let text := messageText cmd
  if startsWith text discardWord then
    match scanInteger (text.drop 8) with
    | some (index, _) => .discard (storeUnsigned index)
    | none => .unreadable
  else if startsWith text blankWord then .blank
  else .command text

/-- `discard_index_ds` behind a control message. -/
def discardIndexAfter (discardIndexDs : Nat) (cmd : List UInt8) : Nat :=
  match dataStreamParseControl cmd with
  | .discard index => index
  | .blank | .command _ | .unreadable => discardIndexDs

end Xineliboutput.Client
