import Xineliboutput.Foundation.Texts
import Xineliboutput.Playlist.MetadataScanner

/-!
# Items of a playlist

`cPlaylistItem` of `tools/playlist.c`. A text that is not known is NULL.
-/

namespace Xineliboutput.Playlist

open Xineliboutput.Foundation Xineliboutput.Server

set_option autoImplicit false

structure PlaylistItem where
  filename : List UInt8
  title : Option (List UInt8)
  tracknumber : Option (List UInt8)
  artist : Option (List UInt8)
  album : Option (List UInt8)
  position : Int
  deriving DecidableEq

/-- What follows the first `c`. -/
def strchr (c : UInt8) (s : List UInt8) : Option (List UInt8) :=
  match s.dropWhile (notByte c) with
  | _ :: rest => some rest
  | [] => none

def strchrnext (c : UInt8) (s : List UInt8) : Option (List UInt8) :=
  (strchr c s).filter fun rest => !rest.isEmpty

/-- Up to the last `c`, with it. -/
def strrchr (c : UInt8) (s : List UInt8) : Option (List UInt8) :=
  match s.reverse.dropWhile (notByte c) with
  | byte :: front => some (byte :: front).reverse
  | [] => none

def stripExtension (fname : List UInt8) : List UInt8 :=
  match strrchr 46 fname with
  | some front => front.dropLast
  | none => fname

namespace PlaylistItem

/-- `cPlaylistItem(filename)` -/
def ofFile (filename : List UInt8) : PlaylistItem where
  filename := filename
  title := some (stripExtension (filename.drop ((strrchr 47 filename).getD []).length))
  tracknumber := none
  artist := none
  album := none
  position := -1

/-- `cPlaylistItem(filename, path, title)`; the path is not empty. -/
def ofPath (filename path : List UInt8) (title : Option (List UInt8)) : PlaylistItem where
  filename := if path.getLast? = some 47 then path ++ filename else path ++ 47 :: filename
  title := some (title.getD (stripExtension filename))
  tracknumber := none
  artist := none
  album := none
  position := -1

end PlaylistItem

theorem strchr_key {c : UInt8} {key : List UInt8} (plain : c ∉ key) (value : List UInt8) :
    strchr c (key ++ c :: value) = some value := by
  have skipped : ∀ byte ∈ key, notByte c byte = true := by
    intro byte member
    simpa [notByte] using fun same : byte = c => plain (same ▸ member)
  have stops : notByte c c = false := by simp [notByte]
  rw [strchr, List.dropWhile_append_of_pos skipped, List.dropWhile_cons_of_neg (by simp [stops])]

end Xineliboutput.Playlist
