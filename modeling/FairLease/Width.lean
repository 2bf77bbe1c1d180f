/-!
# Numbers of a fixed width

Numbers in stores, settings and texts have a number of bits that bounds them.
-/

namespace FairLease

def wordSize (bits : Nat) : Nat :=
  Nat.pow 2 bits

/-- From here on a number is nearer to infinity than to the largest number of
double precision. -/
def doubleLimit : Nat :=
  Nat.pow 2 1024 - Nat.pow 2 970

end FairLease
