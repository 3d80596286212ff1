import TagLoom.Bytes.Quoted

/-!
# Source files

A template file as a pass takes it in.  The checksum of its content tells whether it changed since
an earlier pass.
-/

namespace TagLoom

namespace Checksum

/-- The polynomial of the 32-bit cyclic redundancy check, lowest power first. -/
def polynomial : UInt32 := 0xEDB88320

def bitStep (crc : UInt32) : UInt32 :=
  if crc &&& 1 == 1 then (crc >>> 1) ^^^ polynomial else crc >>> 1

def byteStep (crc : UInt32) (c : UInt8) : UInt32 :=
  let crc := crc ^^^ c.toUInt32
  bitStep (bitStep (bitStep (bitStep (bitStep (bitStep (bitStep (bitStep crc)))))))

def crc32 (s : Bytes) : UInt32 := s.foldl byteStep 0xFFFFFFFF ^^^ 0xFFFFFFFF

def hash (s : Bytes) : Bytes := Bytes.hex 8 (crc32 s).toNat

end Checksum

/-- A template file: where it was found, its name below the root with and without extension, the
checksum of its content, and the content.  An empty checksum stands for none. -/
structure SourceFile where
  path : Bytes
  name : Bytes
  logical : Bytes
  hash : Bytes
  content : Bytes
deriving DecidableEq, Inhabited

namespace SourceFile

def display (f : SourceFile) : Bytes := if f.name.isEmpty then f.path else f.name

end SourceFile

def defaultExtension : Bytes := ".html"

end TagLoom
