import LiveMigration.Text.Bytes

/-!
The cyclic redundancy check of 32 bits with the reflected polynomial EDB88320. The register
is fed byte by byte, so a checksum may be taken piece by piece.
-/

namespace LiveMigration.Crc32

def shift (r : UInt32) : UInt32 :=
  if r &&& 1 = 1 then (r >>> 1) ^^^ 0xEDB88320 else r >>> 1

def feed (r : UInt32) (b : UInt8) : UInt32 :=
  shift (shift (shift (shift (shift (shift (shift (shift (r ^^^ b.toUInt32))))))))

def start : UInt32 := 0xFFFFFFFF

def feedAll (r : UInt32) (bytes : Bytes) : UInt32 := bytes.foldl feed r

def finish (r : UInt32) : UInt32 := r ^^^ 0xFFFFFFFF

def ofBytes (bytes : Bytes) : UInt32 := finish (feedAll start bytes)

theorem feedAll_append (r : UInt32) (a b : Bytes) :
    feedAll r (a ++ b) = feedAll (feedAll r a) b := by
  simp [feedAll]

end LiveMigration.Crc32
