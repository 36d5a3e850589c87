/-!
# Powers

A power of a natural number or of an integer is that of the core library wherever it is written, also
where the powers of every monoid are known.
-/

attribute [instance (20000), default_instance (20000)] instPowNat
