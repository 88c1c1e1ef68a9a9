import Rocketcycle.Rkcypb

/-!
# Routing

`pkg/rkcy/hash_func.go`: the partition of a message is the 64 bit FNV-1 hash of its key modulo
the partition count (`prepKafkaMessage` of `pkg/stream/managed_producer.go`). The hasher is one mutable
object that all producers of a process share without a lock: a call of `Hash` is taken to be over when
the next one begins.
-/

namespace Rocketcycle

/-- `hash/fnv`'s `New64`: multiply by the prime, then xor with the byte. -/
def fnv64 (val : Bytes) : UInt64 :=
  val.foldl (fun h b => (h * 1099511628211) ^^^ b.toUInt64) 14695981039346656037

def fnv64Hash (val : Bytes) (count : Nat) : Nat := (fnv64 val).toNat % count

theorem fnv64Hash_lt {count : Nat} (h : 0 < count) (val : Bytes) : fnv64Hash val count < count :=
  Nat.mod_lt _ h

@[simp] theorem fnv64Hash_one (val : Bytes) : fnv64Hash val 1 = 0 := Nat.mod_one _

end Rocketcycle
