import StackOwl.Lib.HashChain
import StackOwl.Lib.Json
import StackOwl.Lib.Text

/-!
# Idempotency keys of tool calls

`idempotency_key` and `_owned_key` (`pipeline/durable/ledger.py`): the key under
which a side-effecting call of a durable task is recorded.  The task, the index of
the iteration, the tool and the canonical JSON of the arguments are joined with the
unit separator and hashed; the owner is folded in by hashing once more.

`hashlib.sha256(…).hexdigest()` is a parameter.

## Main results

* `ownedKey_inj` — within one task, where the texts hashed for two calls do not
  collide, the calls have one key exactly when they agree on the iteration, the tool
  and the canonical arguments: the arguments, which come last, hold no control
  character, and the iteration, which comes first, is all digits.
-/

namespace StackOwl.Durable

open Lib

/-- The arguments of a tool call, as the dispatcher received them. -/
abbrev ToolArgs := List (String × Json)

/-- `json.dumps(args, sort_keys=True, ensure_ascii=False, default=str)`. -/
def canonicalArgs (args : ToolArgs) : String := dumps (.obj args)

/-- What the parts of a key are joined with before they are hashed. -/
def keyText (parts : List String) : String := "\x1f".intercalate parts

def idempotencyKey (sha256 : String → String) (taskId : String) (stepIndex : Nat)
    (toolName : String) (args : ToolArgs) : String :=
  sha256 (keyText [taskId, stepIndex.repr, toolName, canonicalArgs args])

def ownedKey (sha256 : String → String) (ownerId taskId : String) (stepIndex : Nat)
    (toolName : String) (args : ToolArgs) : String :=
  sha256 (keyText [ownerId, idempotencyKey sha256 taskId stepIndex toolName args])

/-- The texts that are hashed for the key of a call. -/
def hashedFor (sha256 : String → String) (ownerId taskId : String) (stepIndex : Nat)
    (toolName : String) (args : ToolArgs) : List String :=
  [keyText [taskId, stepIndex.repr, toolName, canonicalArgs args],
    keyText [ownerId, idempotencyKey sha256 taskId stepIndex toolName args]]

/-! ## Reading the parts back -/

theorem separator_not_mem_of_plain {text : String} (h : Plain text) :
    '\x1f' ∉ text.toList := by
  intro hmem
  exact absurd (h _ hmem) (by decide)

theorem separator_not_mem_canonicalArgs (args : ToolArgs) :
    '\x1f' ∉ (canonicalArgs args).toList :=
  separator_not_mem_of_plain (dumps_plain _)

theorem separator_not_mem_repr (n : Nat) : '\x1f' ∉ n.repr.toList :=
  separator_not_mem_of_plain (plain_toString_int n)

theorem keyText_pair (x y : String) :
    (keyText [x, y]).toList = x.toList ++ '\x1f' :: y.toList := by
  rw [keyText, String.toList_intercalate]
  simp [List.intercalate_cons_cons]

theorem keyText_four (x y z w : String) :
    (keyText [x, y, z, w]).toList =
      x.toList ++ '\x1f' :: (y.toList ++ '\x1f' :: (z.toList ++ '\x1f' :: w.toList)) := by
  rw [keyText, String.toList_intercalate]
  simp [List.intercalate_cons_cons]

/-- **The key of a call.**  Within one task, two calls share a key exactly when they
agree on the iteration, the tool and the canonical arguments. -/
theorem ownedKey_inj {sha256 : String → String} {texts : List String}
    (hfree : HashChain.CollisionFree sha256 texts) {ownerId taskId : String} {n n' : Nat}
    {tool tool' : String} {args args' : ToolArgs}
    (h : hashedFor sha256 ownerId taskId n tool args ⊆ texts)
    (h' : hashedFor sha256 ownerId taskId n' tool' args' ⊆ texts) :
    ownedKey sha256 ownerId taskId n tool args =
        ownedKey sha256 ownerId taskId n' tool' args' ↔
      n = n' ∧ tool = tool' ∧ canonicalArgs args = canonicalArgs args' := by
  simp only [hashedFor, List.cons_subset] at h h'
  constructor
  · intro hkey
    have howned := congrArg String.toList (hfree _ h.2.1 _ h'.2.1 hkey)
    rw [keyText_pair, keyText_pair] at howned
    have hlogical := (List.cons.inj (List.append_cancel_left howned)).2
    have hpayload := congrArg String.toList
      (hfree _ h.1 _ h'.1 (String.toList_inj.mp hlogical))
    rw [keyText_four, keyText_four] at hpayload
    have hrest := (List.cons.inj (List.append_cancel_left hpayload)).2
    obtain ⟨hstep, hcall⟩ := split_first (separator_not_mem_repr n)
      (separator_not_mem_repr n') hrest
    obtain ⟨htool, hargs⟩ := split_last (separator_not_mem_canonicalArgs args)
      (separator_not_mem_canonicalArgs args') hcall
    exact ⟨repr_inj (String.toList_inj.mp hstep), String.toList_inj.mp htool,
      String.toList_inj.mp hargs⟩
  · rintro ⟨rfl, rfl, hargs⟩
    rw [ownedKey, ownedKey, idempotencyKey, idempotencyKey, hargs]

end StackOwl.Durable
