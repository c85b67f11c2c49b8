import Akroasis.Driver
import Akroasis.Radio.Codec

/-!
# Akroasis.Radio.Protocol

The UV-5R clone protocol driver (`syntonia::baofeng::protocol`), over any serial port.

A port is given by what `write_all` and `read_exact` do; a call that fails leaves the port
in the state it has then, and the driver goes on from there.  Delays and the progress
callback are left out.  Addresses on the wire are `u16`, and so are those of the driver;
the loops over them are lists of block addresses.
-/

namespace Akroasis.Radio

/-! ## Serial ports -/

/-- An `io::Error`: the read timeout, or any other error with its text. -/
inductive IoError
  | timedOut (text : String)
  | other (text : String)
  deriving DecidableEq, Repr

def IoError.display : IoError → String
  | .timedOut text => text
  | .other text => text

/-- A serial port with states `σ`. -/
structure SerialPort (σ : Type) where
  writeAll : Bytes → Driver IoError σ PUnit
  readExact : (n : Nat) → Driver IoError σ (FixedBytes n)

/-! ## Constants -/

def ack : UInt8 := 0x06
def cmdRead : UInt8 := 0x53
def cmdReadResponse : UInt8 := 0x58
def cmdWrite : UInt8 := 0x58

def mainBlockStart : UInt16 := 0x0000
def mainBlockEnd : UInt16 := 0x1800
def auxBlockStart : UInt16 := 0x1E80
def auxBlockEnd : UInt16 := 0x2000

def readBlockSize : UInt8 := 0x40
def auxReadBlockSize : UInt8 := 0x10
def writeBlockSize : UInt8 := 0x10

def maxRetries : Nat := 3

/-- Factory calibration data, as start and end (exclusive). -/
def forbiddenRanges : List (UInt16 × UInt16) :=
  [(0x1F00, 0x1F60), (0x1F70, 0x1F80), (0x1F90, 0x1FC0), (0x1FD0, 0x2000)]

def uploadRangesMain : List (UInt16 × UInt16) :=
  [(0x0000, 0x0CF0), (0x0D00, 0x0DF0), (0x0E00, 0x1800)]

def uploadRangesAux : List (UInt16 × UInt16) :=
  [(0x1EE0, 0x1EF0), (0x1F60, 0x1F70), (0x1F80, 0x1F90), (0x1FC0, 0x1FD0)]

/-! ## Variants -/

/-- The variants of the UV-5R family. -/
inductive RadioVariant
  | uv5r
  | uv5rOriginal
  | bfF8hp
  | uv5rmPlus
  deriving DecidableEq, Repr

/-- What the transfer of an image depends on. -/
structure VariantConfig where
  variant : RadioVariant
  hasAuxBlock : Bool
  needsAuxWarmup : Bool
  deriving DecidableEq, Repr

def uv5rConfig : VariantConfig := ⟨.uv5r, false, false⟩
def uv5rOriginalConfig : VariantConfig := { uv5rConfig with variant := .uv5rOriginal }
def bfF8hpConfig : VariantConfig := ⟨.bfF8hp, true, true⟩
def uv5rmPlusConfig : VariantConfig := ⟨.uv5rmPlus, true, true⟩

/-- The configuration of each variant. -/
def RadioVariant.config : RadioVariant → VariantConfig
  | .uv5r => uv5rConfig
  | .uv5rOriginal => uv5rOriginalConfig
  | .bfF8hp => bfF8hpConfig
  | .uv5rmPlus => uv5rmPlusConfig

/-! ## Errors -/

inductive ProtocolError
  | serialIo (source : IoError)
  | timeout
  | badAck (expected got : UInt8)
  | badResponseHeader (addr : UInt16)
  | identFailed
  | forbiddenAddress (addr : UInt16)
  | retryExhausted (addr : UInt16) (attempts : Nat) (source : ProtocolError)
  | imageTooShort (required actual : Nat)
  deriving DecidableEq, Repr

/-- Upper-case hexadecimal with at least `width` digits. -/
def hex (width n : Nat) : String :=
  let digits := (Nat.toDigits 16 n).map Char.toUpper
  String.ofList (List.replicate (width - digits.length) '0' ++ digits)

def ProtocolError.display : ProtocolError → String
  | .serialIo source => "serial I/O error: " ++ source.display
  | .timeout => "timeout waiting for radio response"
  | .badAck expected got =>
      "bad ACK: expected 0x" ++ hex 2 expected.toNat ++ ", got 0x" ++ hex 2 got.toNat
  | .badResponseHeader addr => "response header mismatch at address 0x" ++ hex 4 addr.toNat
  | .identFailed => "radio identification failed"
  | .forbiddenAddress addr => "write to forbidden calibration address 0x" ++ hex 4 addr.toNat
  | .retryExhausted addr attempts source =>
      "block operation at 0x" ++ hex 4 addr.toNat ++ " failed after " ++ toString attempts ++
        " attempts: " ++ source.display
  | .imageTooShort required actual =>
      "image covers " ++ toString actual ++ " bytes but this variant writes up to 0x" ++
        hex 4 required

/-! ## Blocks -/

/-- Does a block overlap a calibration range?  Lengths that are no `u16` saturate. -/
def isForbidden (addr : UInt16) (len : Nat) : Bool :=
  let stop := min 0xFFFF (addr.toNat + min 0xFFFF len)
  forbiddenRanges.any fun range => decide (addr.toNat < range.2.toNat ∧ range.1.toNat < stop)

/-- The high byte of an address. -/
def addrHigh (addr : UInt16) : UInt8 := UInt8.ofNat (addr.toNat / 256)

/-- The low byte of an address. -/
def addrLow (addr : UInt16) : UInt8 := UInt8.ofNat addr.toNat

section Driver

variable {σ : Type} (port : SerialPort σ)

def readExactTimeout (n : Nat) : Driver ProtocolError σ (FixedBytes n) :=
  (port.readExact n).mapErr fun
    | .timedOut _ => .timeout
    | .other text => .serialIo (.other text)

def sendAck : Driver ProtocolError σ PUnit := (port.writeAll [ack]).mapErr .serialIo

def readAck : Driver ProtocolError σ PUnit := do
  let byte ← readExactTimeout port 1
  if byte.val ≠ [ack] then throw (.badAck ack (byte.val.getD 0 0)) else pure ⟨⟩

def readBlock (addr : UInt16) (len : UInt8) : Driver ProtocolError σ Bytes := do
  (port.writeAll [cmdRead, addrHigh addr, addrLow addr, len]).mapErr .serialIo
  let header ← readExactTimeout port 4
  if header.val ≠ [cmdReadResponse, addrHigh addr, addrLow addr, len] then
    throw (.badResponseHeader addr)
  else do
    let data ← readExactTimeout port len.toNat
    sendAck port
    pure data.val

def writeBlock (addr : UInt16) (data : Bytes) : Driver ProtocolError σ PUnit :=
  if isForbidden addr data.length then throw (.forbiddenAddress addr)
  else do
    (port.writeAll ([cmdWrite, addrHigh addr, addrLow addr, UInt8.ofNat data.length] ++
      data)).mapErr
      .serialIo
    readAck port

def readBlockWithRetry (addr : UInt16) (len : UInt8) : Driver ProtocolError σ Bytes :=
  Driver.retrying (fun _ => none) (.retryExhausted addr maxRetries) (readBlock port addr len)
    (maxRetries - 1)

def writeBlockWithRetry (addr : UInt16) (data : Bytes) : Driver ProtocolError σ PUnit :=
  Driver.retrying
    (fun
      | .forbiddenAddress _ => some (.forbiddenAddress addr)
      | _ => none)
    (.retryExhausted addr maxRetries) (writeBlock port addr data) (maxRetries - 1)

/-! ## Images -/

/-- The addresses of `while addr < stop { …; addr += size }`. -/
def blockAddrs (start stop : UInt16) (size : UInt8) : List UInt16 :=
  (Memory.blocks start.toNat stop.toNat size.toNat).map UInt16.ofNat

/-- Blocks read into an image, in order. -/
def readBlocks (len : UInt8) : List UInt16 → MemoryImage → Driver ProtocolError σ MemoryImage
  | [], image => pure image
  | addr :: addrs, image => do
      let data ← readBlockWithRetry port addr len
      readBlocks len addrs (image.writeBytes addr.toNat data)

def downloadImage (config : VariantConfig) : Driver ProtocolError σ MemoryImage := do
  let size := if config.hasAuxBlock then auxBlockEnd.toNat else mainBlockEnd.toNat
  let image ← readBlocks port readBlockSize (blockAddrs mainBlockStart mainBlockEnd readBlockSize)
    (MemoryImage.new size)
  if !config.hasAuxBlock then pure image
  else if config.needsAuxWarmup then do
    let warmup ← readBlockWithRetry port auxBlockStart auxReadBlockSize
    readBlocks port auxReadBlockSize
      (blockAddrs (auxBlockStart + auxReadBlockSize.toUInt16) auxBlockEnd auxReadBlockSize)
      (image.writeBytes auxBlockStart.toNat warmup)
  else
    readBlocks port auxReadBlockSize (blockAddrs auxBlockStart auxBlockEnd auxReadBlockSize) image

/-- The ranges a variant writes. -/
def uploadRanges (config : VariantConfig) : List (UInt16 × UInt16) :=
  if config.hasAuxBlock then uploadRangesMain ++ uploadRangesAux else uploadRangesMain

/-- The blocks of the two nested loops of `upload_image`. -/
def uploadBlocks (config : VariantConfig) : List UInt16 :=
  (uploadRanges config).flatMap fun range => blockAddrs range.1 range.2 writeBlockSize

/-- The end of the highest range a variant writes. -/
def requiredSize (config : VariantConfig) : Nat :=
  ((uploadRanges config).map fun range => range.2.toNat).foldl max 0

def uploadImage (config : VariantConfig) (image : MemoryImage) : Driver ProtocolError σ PUnit :=
  if image.length < requiredSize config then
    throw (.imageTooShort (requiredSize config) image.length)
  else
    (uploadBlocks config).forM fun addr =>
      writeBlockWithRetry port addr (image.readBytes addr.toNat writeBlockSize.toNat)

end Driver

end Akroasis.Radio
