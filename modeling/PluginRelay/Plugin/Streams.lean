import PluginRelay.Plugin.LogBuffer
import PluginRelay.Wasm.Instance

/-!
# The streams of a plugin

A plugin reads its request from descriptor 0, writes its response to descriptor 1 and logs to
descriptor 2, through calls that name pieces of its memory. A call with a pointer out of range, or
one that is not aligned, fails as a whole. Beside that there are calls for files, clocks and the like; these are
answered by a `System`, and leave the streams alone.
-/
namespace PluginRelay.Plugin

open Wasm (Memory Value Stop Answer HostFunction Offer Linker ValueType FunctionType)

structure Streams where
  input : Bytes
  output : Bytes
  logs : LogBuffer
  /-- How many other calls the plugin has made. -/
  asked : Nat

/-- What plugins find around them: the results of a call that has nothing to do with their streams, and their memory
afterwards. Answers may differ from call to call, which are counted from zero. -/
structure System where
  answer : (name : String) → (number : Nat) → List Value → Memory → Except Stop (List Value) × Memory

/-- A piece of memory. -/
structure Span where
  address : Nat
  length : Nat

namespace Span

/-- A word of 32 bits at an aligned address. -/
def aligned? (m : Memory) (address : Nat) : Option Nat :=
  if address % 4 = 0 then m.readNat? address 4 else none

/-- The spans of a list in memory: pairs of an address and a length. -/
def list? (m : Memory) (address : Nat) : (count : Nat) → Option (List Span)
  | 0 => some []
  | count + 1 => do
    let start ← aligned? m address
    let length ← aligned? m (address + 4)
    return ⟨start, length⟩ :: (← list? m (address + 8) count)

end Span

def badDescriptor : Nat := 8

/-- Gives the plugin a result code. -/
def code (n : Nat) : Except Stop (List Value) := .ok [.i32 (BitVec.ofNat 32 n)]

/-- Stores how much was moved where the plugin asks for it, and reports success. -/
def report (m : Memory) (s : Streams) (place count : Nat) : Answer Streams :=
  match (if place % 4 = 0 then m.writeNat? place 4 count else none) with
  | some m => ⟨code 0, m, s⟩
  | none => ⟨.error .refused, m, s⟩

/-- Reads from the input into the first span that is not empty. -/
def fdRead : HostFunction Streams
  | [.i32 descriptor, .i32 list, .i32 count, .i32 place], m, s =>
    if descriptor ≠ 0 then ⟨code badDescriptor, m, s⟩
    else
      match Span.list? m list.toNat count.toNat with
      | none => ⟨.error .refused, m, s⟩
      | some spans =>
        match spans.find? (0 < ·.length) with
        | none => report m s place.toNat 0
        | some span =>
          let bytes := s.input.take span.length
          if m.fits span.address span.length then
            match m.write? span.address bytes with
            | some m => report m { s with input := s.input.drop span.length } place.toNat bytes.length
            | none => ⟨.error .refused, m, s⟩
          else ⟨.error .refused, m, s⟩
  | _, m, s => ⟨.error .stuck, m, s⟩

/-- Writes all spans to the output, or the first one that is not empty to the log. -/
def fdWrite : HostFunction Streams
  | [.i32 descriptor, .i32 list, .i32 count, .i32 place], m, s =>
    if descriptor ≠ 1 && descriptor ≠ 2 then ⟨code badDescriptor, m, s⟩
    else
      match (Span.list? m list.toNat count.toNat).bind
          fun spans => spans.mapM fun span => m.read? span.address span.length with
      | none => ⟨.error .refused, m, s⟩
      | some pieces =>
        if descriptor = 1 then
          let bytes := pieces.flatten
          report m { s with output := s.output ++ bytes } place.toNat bytes.length
        else
          let bytes := (pieces.find? (!·.isEmpty)).getD []
          report m { s with logs := s.logs.write bytes } place.toNat bytes.length
  | _, m, s => ⟨.error .stuck, m, s⟩

/-- Codes from here on are no exit codes. -/
def exitLimit : Nat := 126

def procExit : HostFunction Streams
  | [.i32 status], m, s =>
    ⟨.error (if status.toNat < exitLimit then .exited status.toNat else .refused), m, s⟩
  | _, m, s => ⟨.error .stuck, m, s⟩

def transferType : FunctionType := ⟨[.i32, .i32, .i32, .i32], [.i32]⟩

/-! ### Other calls -/

/-- A call that takes words of 32 bits. -/
def wordsType (count : Nat) : FunctionType := ⟨List.replicate count .i32, [.i32]⟩

/-- The types of the calls that a system answers. -/
def systemCalls : List (String × FunctionType) :=
  [("args_get", wordsType 2), ("args_sizes_get", wordsType 2), ("environ_get", wordsType 2),
    ("environ_sizes_get", wordsType 2), ("clock_res_get", wordsType 2),
    ("clock_time_get", ⟨[.i32, .i64, .i32], [.i32]⟩), ("random_get", wordsType 2), ("sched_yield", wordsType 0),
    ("poll_oneoff", wordsType 4), ("proc_raise", wordsType 1), ("fd_advise", ⟨[.i32, .i64, .i64, .i32], [.i32]⟩),
    ("fd_allocate", ⟨[.i32, .i64, .i64], [.i32]⟩), ("fd_close", wordsType 1), ("fd_datasync", wordsType 1),
    ("fd_fdstat_get", wordsType 2), ("fd_fdstat_set_flags", wordsType 2),
    ("fd_fdstat_set_rights", ⟨[.i32, .i64, .i64], [.i32]⟩), ("fd_filestat_get", wordsType 2),
    ("fd_filestat_set_size", ⟨[.i32, .i64], [.i32]⟩),
    ("fd_filestat_set_times", ⟨[.i32, .i64, .i64, .i32], [.i32]⟩),
    ("fd_pread", ⟨[.i32, .i32, .i32, .i64, .i32], [.i32]⟩), ("fd_pwrite", ⟨[.i32, .i32, .i32, .i64, .i32], [.i32]⟩),
    ("fd_prestat_get", wordsType 2), ("fd_prestat_dir_name", wordsType 3),
    ("fd_readdir", ⟨[.i32, .i32, .i32, .i64, .i32], [.i32]⟩), ("fd_renumber", wordsType 2),
    ("fd_seek", ⟨[.i32, .i64, .i32, .i32], [.i32]⟩), ("fd_sync", wordsType 1), ("fd_tell", wordsType 2),
    ("path_create_directory", wordsType 3), ("path_filestat_get", wordsType 5),
    ("path_filestat_set_times", ⟨[.i32, .i32, .i32, .i32, .i64, .i64, .i32], [.i32]⟩), ("path_link", wordsType 7),
    ("path_open", ⟨[.i32, .i32, .i32, .i32, .i32, .i64, .i64, .i32, .i32], [.i32]⟩), ("path_readlink", wordsType 6),
    ("path_remove_directory", wordsType 3), ("path_rename", wordsType 6), ("path_symlink", wordsType 5),
    ("path_unlink_file", wordsType 3), ("sock_recv", wordsType 6), ("sock_send", wordsType 5),
    ("sock_shutdown", wordsType 2)]

namespace System

/-- A call that the system answers. -/
def function (system : System) (name : String) : HostFunction Streams := fun arguments m s =>
  let (results, m) := system.answer name s.asked arguments m
  ⟨results, m, { s with asked := s.asked + 1 }⟩

/-- Stores zero in two places, as the number of things and as their length. -/
def nothing (m : Memory) (count length : Nat) : Except Stop (List Value) × Memory :=
  let stored := do
    let m ← if count % 4 = 0 then m.writeNat? count 4 0 else none
    if length % 4 = 0 then m.writeNat? length 4 0 else none
  match stored with
  | some m => (code 0, m)
  | none => (.error .refused, m)

/-- A system without arguments, variables and directories, that refuses all other calls. -/
def bare : System where
  answer name _ arguments m :=
    match name, arguments with
    | "args_sizes_get", [.i32 count, .i32 length] | "environ_sizes_get", [.i32 count, .i32 length] =>
      nothing m count.toNat length.toNat
    | "args_get", _ | "environ_get", _ | "sched_yield", _ => (code 0, m)
    | "fd_prestat_get", _ => (code badDescriptor, m)
    | _, _ => (.error .refused, m)

end System

/-- The calls that plugins may import. -/
def linker (system : System) : Linker Streams := fun source name =>
  if source = "wasi_snapshot_preview1" || source = "wasi_unstable" then
    match name with
    | "fd_read" => some ⟨transferType, fdRead⟩
    | "fd_write" => some ⟨transferType, fdWrite⟩
    | "proc_exit" => some ⟨⟨[.i32], []⟩, procExit⟩
    | "sock_accept" => if source = "wasi_unstable" then none else some ⟨wordsType 3, system.function name⟩
    | _ => (systemCalls.lookup name).map fun type => ⟨type, system.function name⟩
  else none

end PluginRelay.Plugin
