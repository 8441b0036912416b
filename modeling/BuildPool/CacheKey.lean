import BuildPool.Build.Basic
import BuildPool.Digest.Sha256
import BuildPool.Text.Utf8

/-!
# Cache keys

Artifacts are cached under a hash of what a build is made from: its project, its task and its
options in order of their names.
-/

namespace BuildPool

open BuildPool.Text BuildPool.Digest

/-- The bytes of an option: a zero byte, the name, an equals sign and the value. -/
def optionBytes (option : String × String) : List UInt8 :=
  0 :: utf8 option.1 ++ utf8 "=" ++ utf8 option.2

/-- The bytes that a cache key is the hash of. -/
def keyBytes (project task : String) (options : Dictionary) : List UInt8 :=
  utf8 project ++ 0 :: utf8 task ++ options.toList.flatMap optionBytes

def Build.cacheKey (b : Build) : String :=
  hexOfBytes (sha256 (keyBytes b.project b.task b.options))

def Request.cacheKey (r : Request) : String :=
  hexOfBytes (sha256 (keyBytes r.project r.task r.options))

end BuildPool
