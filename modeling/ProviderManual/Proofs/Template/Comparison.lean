import ProviderManual.Template.Basic

/-! Templates are the same exactly if they are built alike. -/

namespace ProviderManual.Template

mutual

def Expr.same : Expr → Expr → Bool
  | .absent, .absent => true
  | .bool a, .bool b => a = b
  | .int m, .int n => m = n
  | .text s, .text t => s = t
  | .name m, .name n => m = n
  | .member x m, .member y n => x.same y && m = n
  | .item x k, .item y l => x.same y && k.same l
  | .call x as, .call y bs => x.same y && Expr.sameAll as bs
  | .filter m x as, .filter n y bs => m = n && x.same y && Expr.sameAll as bs
  | .not x, .not y => x.same y
  | .both x a, .both y b => x.same y && a.same b
  | .either x a, .either y b => x.same y && a.same b
  | .compare c x a, .compare d y b => c = d && x.same y && a.same b
  | _, _ => false

def Expr.sameAll : List Expr → List Expr → Bool
  | [], [] => true
  | x :: xs, y :: ys => x.same y && Expr.sameAll xs ys
  | _, _ => false

end

mutual

theorem Expr.same_iff : ∀ x y : Expr, x.same y = true ↔ x = y
  | .absent, y | .bool _, y | .int _, y | .text _, y | .name _, y => by
      cases y <;> simp [Expr.same]
  | .member x _, y | .not x, y => by
      cases y <;> simp [Expr.same, Expr.same_iff x]
  | .item x a, y | .both x a, y | .either x a, y | .compare _ x a, y => by
      cases y <;> simp [Expr.same, Expr.same_iff x, Expr.same_iff a, and_assoc]
  | .call x as, y | .filter _ x as, y => by
      cases y <;> simp [Expr.same, Expr.same_iff x, Expr.sameAll_iff as, and_assoc]

theorem Expr.sameAll_iff : ∀ xs ys : List Expr, Expr.sameAll xs ys = true ↔ xs = ys
  | [], ys => by cases ys <;> simp [Expr.sameAll]
  | x :: xs, ys => by cases ys <;> simp [Expr.sameAll, Expr.same_iff x, Expr.sameAll_iff xs]

end

instance : DecidableEq Expr :=
  fun x y => decidable_of_iff _ (Expr.same_iff x y)

mutual

def Node.same : Node → Node → Bool
  | .text s, .text t => s = t
  | .output x, .output y => x = y
  | .choice c as bs, .choice d as' bs' => c = d && Node.sameAll as as' && Node.sameAll bs bs'
  | .loop m x as bs, .loop n y as' bs' =>
      m = n && x = y && Node.sameAll as as' && Node.sameAll bs bs'
  | .assign m x, .assign n y => m = n && x = y
  | .define m ps as, .define n qs bs => m = n && ps = qs && Node.sameAll as bs
  | _, _ => false

def Node.sameAll : List Node → List Node → Bool
  | [], [] => true
  | n :: ns, m :: ms => n.same m && Node.sameAll ns ms
  | _, _ => false

end

mutual

theorem Node.same_iff : ∀ n m : Node, n.same m = true ↔ n = m
  | .text _, m | .output _, m | .assign _ _, m => by
      cases m <;> simp [Node.same]
  | .choice _ as bs, m | .loop _ _ as bs, m => by
      cases m <;> simp [Node.same, Node.sameAll_iff as, Node.sameAll_iff bs, and_assoc]
  | .define _ _ as, m => by
      cases m <;> simp [Node.same, Node.sameAll_iff as, and_assoc]

theorem Node.sameAll_iff : ∀ ns ms : List Node, Node.sameAll ns ms = true ↔ ns = ms
  | [], ms => by cases ms <;> simp [Node.sameAll]
  | n :: ns, ms => by cases ms <;> simp [Node.sameAll, Node.same_iff n, Node.sameAll_iff ns]

end

instance : DecidableEq Node :=
  fun n m => decidable_of_iff _ (Node.same_iff n m)

end ProviderManual.Template
