import Mos6502.World.Setup

/-!
Loading a raw image. All of memory is declared as RAM, then the image is laid over it, so that no cell stays
undeclared. Memory outside the image is zero, or keeps the bytes of a random fill without counting as written.
-/

namespace Mos6502

/-- The content of memory from an address on, as data or write-protected. -/
structure Image where
  origin : UInt16
  bytes : List UInt8
  rom : Bool
deriving DecidableEq, Repr

/-- Whether an image lies inside a memory. -/
def Image.fits (image : Image) (mem : Memory) : Bool :=
  image.origin.toNat + image.bytes.length ≤ mem.size

/-- Declares memory around and at an image. -/
def Memory.declareImage (mem : Memory) (image : Image) (zeroed : Bool) : Memory :=
  let mem := mem.declareRam 0 mem.size zeroed
  if image.rom then mem.declareRom image.origin.toNat image.bytes
  else mem.declareData image.origin.toNat image.bytes

/-- Why an image cannot be loaded. -/
inductive ImageError where
  | doesNotFit (image : Image) (size : Nat)
deriving DecidableEq, Repr

def ImageError.message : ImageError → String
  | .doesNotFit image size =>
    Text.decimal image.bytes.length ++ " bytes at $" ++ Text.hex 4 image.origin.toNat
      ++ " do not fit in " ++ Text.decimal size ++ " bytes of memory"

/-- Loads an image into a world whose memory has the given fill. -/
def World.loadImage {σ : Type} (image : Image) (fill : Fill) (w : World σ) :
    Except ImageError Unit × World σ :=
  if image.fits w.machine.mem then (.ok (), w.mapMem (·.declareImage image (fill == .zero)))
  else (.error (.doesNotFit image w.machine.mem.size), w)

end Mos6502
