import Reckoner.Error
import Reckoner.Text.Case
/-!
The words that estimates of network, storage and compression are asked for by, with the figures
behind them. Words are matched in any case, with `-` for `_`.
-/
namespace Reckoner

/-- The one of `all` that has `s` among its words, or the error that names them all. -/
def readWord {α : Type} (kind : String) (all : List α) (name : α → String)
    (words : α → List String) (s : String) : Except Error α :=
  orError (all.find? fun a => (words a).contains (Text.keyword s))
    (.unknownKeyword kind (Text.trim s) (all.map name))

/-- How far apart the two ends of a connection are. -/
inductive Scope where
  | local
  | regional
  | continental
  | global
deriving DecidableEq, Repr

namespace Scope

def all : List Scope := [.local, .regional, .continental, .global]

def name : Scope → String
  | .local => "local"
  | .regional => "regional"
  | .continental => "continental"
  | .global => "global"

def words : Scope → List String
  | .local => ["local", "lan"]
  | .regional => ["regional", "region"]
  | .continental => ["continental", "continent"]
  | .global => ["global", "intercontinental"]

/-- Seconds to the other end and back. -/
def roundTrip : Scope → Decimal
  | .local => .ofLiteral 5 4
  | .regional => .ofLiteral 1 2
  | .continental => .ofLiteral 5 2
  | .global => .ofLiteral 15 2

def read (s : String) : Except Error Scope := readWord "network scope" all name words s

end Scope

/-- Kinds of network links. -/
inductive Link where
  | gigabit
  | tenGig
  | hundredGig
  | wifi
  | fourG
  | fiveG
deriving DecidableEq, Repr

namespace Link

def all : List Link := [gigabit, tenGig, hundredGig, wifi, fourG, fiveG]

def name : Link → String
  | gigabit => "gigabit"
  | tenGig => "ten_gig"
  | hundredGig => "hundred_gig"
  | wifi => "wifi"
  | fourG => "four_g"
  | fiveG => "five_g"

def words : Link → List String
  | gigabit => ["gigabit", "1g", "gbe"]
  | tenGig => ["ten_gig", "10g", "10gbe"]
  | hundredGig => ["hundred_gig", "100g", "100gbe"]
  | wifi => ["wifi", "wi_fi"]
  | fourG => ["four_g", "4g", "lte"]
  | fiveG => ["five_g", "5g"]

/-- Megabytes a second. -/
def throughput : Link → Decimal
  | gigabit => .ofLiteral 125 0
  | tenGig => .ofLiteral 1250 0
  | hundredGig => .ofLiteral 12500 0
  | wifi => .ofLiteral 25 0
  | fourG => .ofLiteral 25 1
  | fiveG => .ofLiteral 50 0

def read (s : String) : Except Error Link := readWord "network type" all name words s

end Link

/-- Kinds of storage. -/
inductive Drive where
  | ssd
  | sataSsd
  | nvme
  | pcieSsd
  | hdd
deriving DecidableEq, Repr

namespace Drive

def all : List Drive := [ssd, sataSsd, nvme, pcieSsd, hdd]

def name : Drive → String
  | ssd => "ssd"
  | sataSsd => "sata_ssd"
  | nvme => "nvme"
  | pcieSsd => "pcie_ssd"
  | hdd => "hdd"

def words : Drive → List String
  | ssd => ["ssd"]
  | sataSsd => ["sata_ssd", "sata"]
  | nvme => ["nvme"]
  | pcieSsd => ["pcie_ssd", "pcie"]
  | hdd => ["hdd"]

/-- Megabytes a second when reading in sequence. -/
def throughput : Drive → Decimal
  | ssd => .ofLiteral 500 0
  | sataSsd => .ofLiteral 550 0
  | nvme => .ofLiteral 3000 0
  | pcieSsd => .ofLiteral 5000 0
  | hdd => .ofLiteral 150 0

/-- Seconds until a read at any place begins. -/
def latency : Drive → Decimal
  | ssd => .ofLiteral 1 4
  | sataSsd => .ofLiteral 1 4
  | nvme => .ofLiteral 2 5
  | pcieSsd => .ofLiteral 1 5
  | hdd => .ofLiteral 1 2

def read (s : String) : Except Error Drive := readWord "storage type" all name words s

end Drive

/-- Kinds of compression. -/
inductive Compression where
  | gzip
  | lz4
  | zstd
  | bzip2
  | snappy
  | uncompressed
deriving DecidableEq, Repr

namespace Compression

def all : List Compression := [gzip, lz4, zstd, bzip2, snappy, uncompressed]

def name : Compression → String
  | gzip => "gzip"
  | lz4 => "lz4"
  | zstd => "zstd"
  | bzip2 => "bzip2"
  | snappy => "snappy"
  | uncompressed => "none"

def words : Compression → List String
  | gzip => ["gzip", "gz"]
  | lz4 => ["lz4"]
  | zstd => ["zstd", "zstandard"]
  | bzip2 => ["bzip2", "bz2"]
  | snappy => ["snappy"]
  | uncompressed => ["none", "uncompressed"]

/-- How many times smaller the compressed size is. -/
def ratio : Compression → Decimal
  | gzip => .ofLiteral 3 0
  | lz4 => .ofLiteral 2 0
  | zstd => .ofLiteral 35 1
  | bzip2 => .ofLiteral 4 0
  | snappy => .ofLiteral 25 1
  | uncompressed => .ofLiteral 1 0

def read (s : String) : Except Error Compression := readWord "compression type" all name words s

end Compression
end Reckoner
