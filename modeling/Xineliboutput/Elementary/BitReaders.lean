import Mathlib

/-!
# The bit readers

`tools/bitstream.h` has two readers: the one under `NOCACHE` looks up every bit, the other
keeps the bytes that it has taken in a word of 32 bits. The Exp-Golomb functions are the same
for both. A call is `none` where it reads outside the buffer or does not end.
-/

namespace Xineliboutput.Elementary

set_option autoImplicit false

structure BitReader (State : Type) where
  brGetBit : State → Option (Nat × State)
  brGetBits : Nat → State → Option (Nat × State)
  brSkipBit : State → Option State
  brSkipBits : Nat → State → Option State

/-! ## NOCACHE -/

/-- `br_state` under `NOCACHE`; `count` and `index` are in bits. -/
structure UncachedBr where
  data : List UInt8
  count : Nat
  index : Nat
  deriving DecidableEq

namespace UncachedBr

def brInit (data : List UInt8) : UncachedBr := ⟨data, 8 * data.length, 0⟩

/-- `BR_EOF` -/
def brEof (br : UncachedBr) : Bool := br.index ≥ br.count

def brGetBit (br : UncachedBr) : Option (Nat × UncachedBr) :=
  if br.index ≥ br.count then some (1, br)
  else br.data[br.index >>> 3]?.map fun byte =>
    ((byte.toNat >>> (7 - (br.index &&& 7))) &&& 1, { br with index := br.index + 1 })

/-- The loop of `br_get_bits`, with what it has collected. -/
def collectBits : Nat → Nat → UncachedBr → Option (Nat × UncachedBr)
  | 0, r, br => some (r, br)
  | n + 1, r, br => do
      let (bit, br) ← br.brGetBit
      collectBits n (r ||| (bit <<< n)) br

def brGetBits (n : Nat) (br : UncachedBr) : Option (Nat × UncachedBr) := collectBits n 0 br

def brSkipBits (n : Nat) (br : UncachedBr) : Option UncachedBr :=
  some { br with index := br.index + n }

def brSkipBit (br : UncachedBr) : Option UncachedBr := br.brSkipBits 1

def reader : BitReader UncachedBr := ⟨brGetBit, brGetBits, brSkipBit, brSkipBits⟩

end UncachedBr

/-! ## With a cache -/

/-- `br_state` without `NOCACHE`. The pointer `data` is an index of the buffer, and `dataEnd`
its length; `cacheBits` of `cache` have not been read. Nothing looks at `madeUp`, which counts
the bytes that did not come from the buffer. -/
structure CachedBr where
  buffer : List UInt8
  data : Nat
  cache : Nat
  cacheBits : Nat
  madeUp : Nat
  deriving DecidableEq

namespace CachedBr

def brInit (buffer : List UInt8) : CachedBr := ⟨buffer, 0, 0, 0, 0⟩

def dataEnd (br : CachedBr) : Nat := br.buffer.length

def position (br : CachedBr) : Nat := 8 * (br.data + br.madeUp) - br.cacheBits

/-- `BR_GET_BYTE` -/
def brGetByte (br : CachedBr) : Option (Nat × CachedBr) :=
  if br.data < br.dataEnd then
    br.buffer[br.data]?.map fun byte => (byte.toNat, { br with data := br.data + 1 })
  else some (0xff, { br with madeUp := br.madeUp + 1 })

/-- The loop of `br_get_bits`, which ends after three rounds. -/
def fillCache : Nat → CachedBr → Option CachedBr
  | 0, br => if br.cacheBits < 24 then none else some br
  | rounds + 1, br =>
      if br.cacheBits < 24 then do
        let (byte, br) ← br.brGetByte
        fillCache rounds { br with
          cache := (br.cache <<< 8 ||| byte) % 2 ^ 32
          cacheBits := br.cacheBits + 8 }
      else some br

/-- `br_get_bits` for 24 bits at most. -/
def brGetNarrow (n : Nat) (br : CachedBr) : Option (Nat × CachedBr) := do
  let br ← fillCache 3 br
  let cacheBits := br.cacheBits - n
  some ((br.cache >>> cacheBits) &&& ((1 <<< n) - 1), { br with cacheBits })

/-- `br_get_bits` for 40 bits at most, the left operand first. -/
def brGetBits (n : Nat) (br : CachedBr) : Option (Nat × CachedBr) :=
  if n > 24 then do
    let (high, br) ← br.brGetNarrow 16
    let (low, br) ← br.brGetNarrow (n - 16)
    some ((high <<< 16) % 2 ^ 32 ||| low, br)
  else br.brGetNarrow n

/-- What `br_get_bit` and `br_skip_bit` do to the cache. -/
def brTakeBit (br : CachedBr) : Option CachedBr :=
  if br.cacheBits = 0 then do
    let (byte, br) ← br.brGetByte
    some { br with cache := byte, cacheBits := 7 }
  else some { br with cacheBits := br.cacheBits - 1 }

def brGetBit (br : CachedBr) : Option (Nat × CachedBr) := do
  let br ← br.brTakeBit
  some ((br.cache >>> br.cacheBits) &&& 1, br)

def brSkipBit (br : CachedBr) : Option CachedBr := br.brTakeBit

def brSkipBits (n : Nat) (br : CachedBr) : Option CachedBr :=
  if br.cacheBits ≥ n then some { br with cacheBits := br.cacheBits - n }
  else
    let n := n - br.cacheBits
    let br := { br with data := br.data + (n >>> 3) }
    let n := n &&& 7
    if n ≠ 0 then do
      let (byte, br) ← br.brGetByte
      some { br with cache := byte, cacheBits := 8 - n }
    else some { br with cacheBits := 0 }

def reader : BitReader CachedBr := ⟨brGetBit, brGetBits, brSkipBit, brSkipBits⟩

end CachedBr

/-! ## Exp-Golomb numbers -/

namespace BitReader

variable {State : Type} (reader : BitReader State)

/-- `while (!br_get_bit(br) && n < 32) n++`, with the rounds that are left. -/
def countZeros : Nat → Nat → State → Option (Nat × State)
  | 0, n, br => do
      let (_, br) ← reader.brGetBit br
      some (n, br)
  | rounds + 1, n, br => do
      let (bit, br) ← reader.brGetBit br
      if bit = 0 then countZeros rounds (n + 1) br else some (n, br)

def brGetUeGolomb (br : State) : Option (Nat × State) := do
  let (n, br) ← reader.countZeros 32 0 br
  if n = 0 then some (0, br)
  else do
    let (bits, br) ← reader.brGetBits n br
    some (((1 <<< n) - 1 + bits) % 2 ^ 32, br)

/-- The signed number for `br_get_ue_golomb(br) + 1`. -/
def signedGolomb (r : Nat) : Int :=
  if r &&& 1 ≠ 0 then -((r >>> 1 : Nat) : Int) else (r >>> 1 : Nat)

def brGetSeGolomb (br : State) : Option (Int × State) := do
  let (ue, br) ← reader.brGetUeGolomb br
  some (signedGolomb ((ue + 1) % 2 ^ 32), br)

def brSkipGolomb (br : State) : Option State := do
  let (n, br) ← reader.countZeros 32 0 br
  reader.brSkipBits n br

end BitReader

/-! ## Calls -/

inductive ReadCall where
  | getBit
  | getBits (n : Fin 33)
  | skipBit
  | skipBits (n : Nat)
  | getUeGolomb
  | getSeGolomb
  | skipGolomb
  deriving DecidableEq

namespace BitReader

variable {State : Type} (reader : BitReader State)

def perform (br : State) : ReadCall → Option (Option Int × State)
  | .getBit => (reader.brGetBit br).map fun (bit, br) => (some (bit : Int), br)
  | .getBits n => (reader.brGetBits n br).map fun (bits, br) => (some (bits : Int), br)
  | .skipBit => (reader.brSkipBit br).map fun br => (none, br)
  | .skipBits n => (reader.brSkipBits n br).map fun br => (none, br)
  | .getUeGolomb => (reader.brGetUeGolomb br).map fun (ue, br) => (some (ue : Int), br)
  | .getSeGolomb => (reader.brGetSeGolomb br).map fun (se, br) => (some se, br)
  | .skipGolomb => (reader.brSkipGolomb br).map fun br => (none, br)

def performAll : List ReadCall → State → Option (List (Option Int) × State)
  | [], br => some ([], br)
  | call :: calls, br => do
      let (value, br) ← reader.perform br call
      let (values, br) ← performAll calls br
      some (value :: values, br)

end BitReader
end Xineliboutput.Elementary
