/-!
# Powers

A power of a number is the one of the core library, also where the powers of algebraic
structures are in scope.
-/

attribute [default_instance 20000] instPowNat
