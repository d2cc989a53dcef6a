-- The MD5 message digest.
import AdmissionGate.Text.Hex

namespace AdmissionGate.Md5

/-! ## The tables -/

def shifts : Array UInt32 :=
  let rounds : List (List UInt32) := [[7, 12, 17, 22], [5, 9, 14, 20], [4, 11, 16, 23], [6, 10, 15, 21]]
  (rounds.flatMap fun row => row ++ row ++ row ++ row).toArray

/-- The constant added at each of the 64 steps: the first 32 bits of the fraction of
`|sin (i + 1)|`. -/
def sines : Array UInt32 := #[
  0xd76aa478, 0xe8c7b756, 0x242070db, 0xc1bdceee, 0xf57c0faf, 0x4787c62a, 0xa8304613, 0xfd469501,
  0x698098d8, 0x8b44f7af, 0xffff5bb1, 0x895cd7be, 0x6b901122, 0xfd987193, 0xa679438e, 0x49b40821,
  0xf61e2562, 0xc040b340, 0x265e5a51, 0xe9b6c7aa, 0xd62f105d, 0x02441453, 0xd8a1e681, 0xe7d3fbc8,
  0x21e1cde6, 0xc33707d6, 0xf4d50d87, 0x455a14ed, 0xa9e3e905, 0xfcefa3f8, 0x676f02d9, 0x8d2a4c8a,
  0xfffa3942, 0x8771f681, 0x6d9d6122, 0xfde5380c, 0xa4beea44, 0x4bdecfa9, 0xf6bb4b60, 0xbebfbc70,
  0x289b7ec6, 0xeaa127fa, 0xd4ef3085, 0x04881d05, 0xd9d4d039, 0xe6db99e5, 0x1fa27cf8, 0xc4ac5665,
  0xf4292244, 0x432aff97, 0xab9423a7, 0xfc93a039, 0x655b59c3, 0x8f0ccc92, 0xffeff47d, 0x85845dd1,
  0x6fa87e4f, 0xfe2ce6e0, 0xa3014314, 0x4e0811a1, 0xf7537e82, 0xbd3af235, 0x2ad7d2bb, 0xeb86d391]

/-! ## Words and blocks -/

/-- The four bytes of a word, lowest first. -/
def wordBytes (w : UInt32) : Bytes :=
  [w.toUInt8, (w >>> 8).toUInt8, (w >>> 16).toUInt8, (w >>> 24).toUInt8]

/-- Words from bytes, four to a word, lowest first; a part of fewer than four is left out. -/
def words : Bytes → List UInt32
  | a :: b :: c :: d :: rest =>
    (a.toUInt32 ||| b.toUInt32 <<< 8 ||| c.toUInt32 <<< 16 ||| d.toUInt32 <<< 24) :: words rest
  | _ => []

/-- A message with a one bit, zeros up to eight bytes short of a whole block, and its length
in bits. -/
def pad (message : Bytes) : Bytes :=
  let zeros := (119 - message.length % 64) % 64
  let bits := 8 * message.length
  message ++ [0x80] ++ List.replicate zeros 0
    ++ wordBytes (UInt32.ofNat bits) ++ wordBytes (UInt32.ofNat (bits / Nat.pow 2 32))

/-- The words of a message in blocks of sixteen. -/
def blocks (ws : List UInt32) : List (Array UInt32) :=
  (List.range (ws.length / 16)).map fun i => ((ws.drop (16 * i)).take 16).toArray

/-! ## The digest -/

/-- The four words that a digest is made of. -/
structure State where
  a : UInt32
  b : UInt32
  c : UInt32
  d : UInt32

def State.start : State := ⟨0x67452301, 0xefcdab89, 0x98badcfe, 0x10325476⟩

def step (block : Array UInt32) (s : State) (i : Nat) : State :=
  let (mix, word) : UInt32 × Nat :=
    if i < 16 then ((s.b &&& s.c) ||| (~~~s.b &&& s.d), i)
    else if i < 32 then ((s.d &&& s.b) ||| (~~~s.d &&& s.c), (5 * i + 1) % 16)
    else if i < 48 then (s.b ^^^ s.c ^^^ s.d, (3 * i + 5) % 16)
    else (s.c ^^^ (s.b ||| ~~~s.d), (7 * i) % 16)
  let sum := mix + s.a + sines.getD i 0 + block.getD word 0
  let shift := shifts.getD i 0
  ⟨s.d, s.b + (sum <<< shift ||| sum >>> (32 - shift)), s.b, s.c⟩

/-- All 64 steps over a block, added to the state before them. -/
def absorb (s : State) (block : Array UInt32) : State :=
  let t := (List.range 64).foldl (step block) s
  ⟨s.a + t.a, s.b + t.b, s.c + t.c, s.d + t.d⟩

def digest (message : Bytes) : Bytes :=
  let s := (blocks (words (pad message))).foldl absorb State.start
  wordBytes s.a ++ wordBytes s.b ++ wordBytes s.c ++ wordBytes s.d

/-- The digest of a text in 32 lower-case hexadecimal digits. -/
def hexDigest (text : String) : String := Hex.encode (digest (Bytes.ofText text))

end AdmissionGate.Md5
