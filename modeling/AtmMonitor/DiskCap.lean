import AtmMonitor.PyText
import Mathlib

namespace AtmMonitor.DiskCap

open PyText

variable {τ : Type}

structure File (τ : Type) where
  name : Str
  size : Nat
  mtime : τ

structure Directory (τ : Type) where
  files : List (File τ)
  names_nodup : (files.map File.name).Nodup

inductive Folder where
  | log | crash
  deriving DecidableEq

/-- `os.path.join(log_dir, name)` or `os.path.join(crash_dir, name)`. -/
abbrev Path := Folder × Str

structure Disk (τ : Type) where
  logDir : Directory τ
  crashDir : Option (Directory τ)

def Disk.listdir (disk : Disk τ) : Folder → List (File τ)
  | .log => disk.logDir.files
  | .crash => disk.crashDir.elim [] Directory.files

def Directory.remove (name : Str) (dir : Directory τ) : Directory τ where
  files := dir.files.filter fun f => f.name ≠ name
  names_nodup := dir.names_nodup.sublist (List.filter_sublist.map _)

def Disk.remove (disk : Disk τ) : Path → Disk τ
  | (.log, name) => { disk with logDir := disk.logDir.remove name }
  | (.crash, name) => { disk with crashDir := disk.crashDir.map (Directory.remove name) }

structure Target (τ : Type) where
  path : Path
  size : Nat
  mtime : τ

def agentLog : Str := "agent.log".toList

def testEj : Str := "test_ej.log".toList

/-- The names that are scanned for in each directory. -/
def isTarget : Folder → Str → Bool
  | .log, name => "agent.log.".toList.isPrefixOf name ||
      (".log".toList.isSuffixOf name && name != agentLog && name != testEj)
  | .crash, name => ".log".toList.isSuffixOf name || ".zip".toList.isSuffixOf name

def targetsIn (disk : Disk τ) (folder : Folder) : List (Target τ) :=
  ((disk.listdir folder).filter fun f => isTarget folder f.name).map
    fun f => ⟨(folder, f.name), f.size, f.mtime⟩

def targets (disk : Disk τ) : List (Target τ) := targetsIn disk .log ++ targetsIn disk .crash

def activeSize (disk : Disk τ) : Nat :=
  ((disk.listdir .log).find? fun f => f.name == agentLog).elim 0 File.size

def totalSize (disk : Disk τ) : Int :=
  ((targets disk).map fun t => (t.size : Int)).sum + activeSize disk

structure Purge (τ : Type) where
  disk : Disk τ
  totalSize : Int
  removed : List Path := []

def Purge.remove (s : Purge τ) (t : Target τ) : Purge τ where
  disk := s.disk.remove t.path
  totalSize := s.totalSize - t.size
  removed := s.removed ++ [t.path]

variable [LinearOrder τ]

end AtmMonitor.DiskCap
