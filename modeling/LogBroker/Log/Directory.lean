import LogBroker.Log.Batch
import LogBroker.Log.Path
import Std.Data.HashMap

/-!
# The directory of the logs

Each partition has a directory of its own below a common root, named for the topic and
the number of the partition, and its log is the one file in it that is ever read.

The disk is a table of files by path. What is read is always what the disk holds at that
time; nothing is kept.
-/

namespace LogBroker

/-! ## Disks -/

/-- The files of a disk. -/
structure Disk where
  /-- the content of the file at each path -/
  files : Std.HashMap String Bytes := ∅

namespace Disk

/-- A disk without files. -/
def empty : Disk := {}

/-- The content of the file at a path, if there is one. A path that no file system can
hold has no file. -/
def read (disk : Disk) (path : String) : Option Bytes := disk.files[path]?

/-- The disk with a file of this content, in place of the one at the path if there is
one. -/
def write (disk : Disk) (path : String) (content : Bytes) : Disk :=
  { disk with files := disk.files.insert path content }

/-- The disk without the file at the path. -/
def remove (disk : Disk) (path : String) : Disk :=
  { disk with files := disk.files.erase path }

/-- A file that is written is read again, and any other file is as it was. -/
@[simp] theorem read_write (disk : Disk) (path other : String) (content : Bytes) :
    (disk.write path content).read other =
      if path = other then some content else disk.read other := by
  simp only [read, write, Std.HashMap.getElem?_insert, beq_iff_eq]

/-- A file that is removed is not there, and any other file is as it was. -/
@[simp] theorem read_remove (disk : Disk) (path other : String) :
    (disk.remove path).read other = if path = other then none else disk.read other := by
  simp only [read, remove, Std.HashMap.getElem?_erase, beq_iff_eq]

end Disk

/-! ## Segments -/

/-- Where the logs are. -/
structure LogDirectory where
  /-- path of the directory that holds those of the partitions -/
  root : String := "/tmp/kraft-combined-logs"
deriving DecidableEq, Repr

namespace LogDirectory

/-- The name of the file in a partition's directory that holds its log. -/
def segmentName : String := "00000000000000000000.log"

/-- The name of a partition's directory. -/
def partitionName (topic : String) (partition : Int32) : String :=
  topic ++ "-" ++ toString partition.toInt

/-- The path of a partition's log. -/
def segmentPath (logs : LogDirectory) (topic : String) (partition : Int32) : String :=
  Path.join (Path.join logs.root (partitionName topic partition)) segmentName

/-- The batches of a partition's log, up to the first that cannot be read, if there is a
log. -/
def readBatches (logs : LogDirectory) (disk : Disk) (topic : String) (partition : Int32) :
    Option (List RecordBatch) :=
  (disk.read (logs.segmentPath topic partition)).map RecordBatch.readAll

end LogDirectory

end LogBroker
