import Relink.Config
import Relink.Regex.Read

/-!
# Dependency policy

Not every specifier stands for a file. Shims stand for an empty module, externals are left to the host,
and only the others are looked up. A shim is a shim even if it is external too.

* `Policy.classify` — what a specifier stands for.
-/

namespace Relink

/-- The modules that the host of a script offers. -/
def hostModules : List String := [
  "assert", "assert/strict", "async_hooks", "buffer", "child_process", "cluster",
  "console", "constants", "crypto", "dgram", "diagnostics_channel", "dns",
  "dns/promises", "domain", "events", "fs", "fs/promises", "http", "http2", "https",
  "inspector", "module", "net", "os", "path", "path/posix", "path/win32",
  "perf_hooks", "process", "punycode", "querystring", "readline", "repl", "stream",
  "stream/consumers", "stream/promises", "stream/web", "string_decoder", "sys",
  "timers", "timers/promises", "tls", "trace_events", "tty", "url", "util",
  "util/types", "v8", "vm", "wasi", "worker_threads", "zlib"]

/-- What a specifier stands for. -/
inductive DependencyKind where
  /-- A file that becomes a module. -/
  | internal
  /-- Something that the host offers. -/
  | external
  /-- An empty module. -/
  | shim
  deriving DecidableEq, Repr, Inhabited

/-- Which specifiers are not looked up. -/
structure Policy where
  names : List String
  patterns : List Regex
  shims : List String
  /-- Further specifiers that are left to the host. -/
  excluded : String → Bool

namespace Policy

/-- The policy of a configuration. -/
def ofConfig (c : Config) (excluded : String → Bool) : Except Failure Policy :=
  match c.externalPatterns.mapM Regex.read? with
  | some patterns =>
    .ok ⟨c.externals ++ (if c.builtins then hostModules else []), patterns, c.shims, excluded⟩
  | none => .error (.configuration .badPattern)

def isExternal (p : Policy) (specifier : String) : Bool :=
  p.names.contains specifier || p.patterns.any (fun r => r.search specifier)
    || p.excluded specifier

def isShim (p : Policy) (specifier : String) : Bool := p.shims.contains specifier

/-- What a specifier stands for. -/
def classify (p : Policy) (specifier : String) : DependencyKind :=
  if p.isShim specifier then .shim
  else if p.isExternal specifier then .external
  else .internal

end Policy

end Relink
